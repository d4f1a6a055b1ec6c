import FullStack.Lib.Regex

/-!
# Words in parts

Cutting a word at a letter, and the regular expressions whose words are put together that way: two parts
around the last occurrence (`mem_splitLast`), a word that stands between two letters (`mem_between`), parts
with a separator (`mem_separated`, `mem_separated_times`), and terminated parts before a last one
(`mem_terminated`). Where the parts are free of the letter, the cut decides whether the expression matches.
-/

open Computability

namespace Words

variable {α : Type} [BEq α] [LawfulBEq α] {a b c : α} {s u v : List α}

def splitLast (c : α) : List α → Option (List α × List α)
  | [] => none
  | a :: s =>
    match splitLast c s with
    | some (u, v) => some (a :: u, v)
    | none => if a == c then some ([], s) else none

theorem splitLast_of_not_mem (h : c ∉ s) : splitLast c s = none := by
  induction s with
  | nil => rfl
  | cons a s ih =>
    have hne : ¬ a = c := fun hac => h (hac ▸ List.mem_cons_self)
    rw [splitLast, ih fun hs => h (List.mem_cons_of_mem a hs)]
    simp [hne]

theorem splitLast_append (u : List α) (hv : c ∉ v) : splitLast c (u ++ c :: v) = some (u, v) := by
  induction u with
  | nil =>
    rw [List.nil_append, splitLast, splitLast_of_not_mem hv]
    simp
  | cons a u ih => rw [List.cons_append, splitLast, ih]

theorem eq_append_of_splitLast (h : splitLast c s = some (u, v)) : s = u ++ c :: v := by
  induction s generalizing u with
  | nil => cases h
  | cons a s ih =>
    rw [splitLast] at h
    cases hs : splitLast c s with
    | some parts =>
      rw [hs] at h
      cases h
      rw [List.cons_append, ← ih hs]
    | none =>
      rw [hs] at h
      by_cases hac : a = c
      · subst hac
        simp only [beq_self_eq_true, if_true, Option.some.injEq, Prod.mk.injEq] at h
        rw [← h.1, ← h.2, List.nil_append]
      · simp [hac] at h

def between (a b : α) : List α → Option (List α)
  | [] => none
  | x :: s => if x == a && s.getLast? == some b then some s.dropLast else none

theorem between_eq_some_iff : between a b s = some u ↔ s = a :: (u ++ [b]) := by
  constructor
  · intro h
    cases s with
    | nil => cases h
    | cons x s =>
      rw [between] at h
      split_ifs at h with hends
      cases h
      obtain ⟨hx, hlast⟩ := Bool.and_eq_true_iff.1 hends
      rw [eq_of_beq hx, List.dropLast_append_getLast? b (eq_of_beq hlast)]
  · rintro rfl
    simp [between]

omit [BEq α] [LawfulBEq α] in
theorem intercalate_cons (part : List α) (parts : List (List α)) :
    [c].intercalate (part :: parts) = part ++ parts.flatMap (c :: ·) := by
  induction parts generalizing part with
  | nil => simp
  | cons q parts ih => rw [List.intercalate_cons_cons, ih, List.flatMap_cons]; simp

omit [BEq α] [LawfulBEq α] in
theorem intercalate_concat (parts : List (List α)) (last : List α) :
    [c].intercalate (parts ++ [last]) = parts.flatMap (· ++ [c]) ++ last := by
  induction parts with
  | nil => simp
  | cons q parts ih =>
    rw [List.cons_append, List.intercalate_cons_of_ne_nil (by simp), ih, List.flatMap_cons]
    simp

end Words

namespace Regex

variable {α : Type} {p : α → Bool} {r t : Regex α} {s : List α} {a : α}

theorem mem_one_seq : s ∈ (seq (one p) t).lang ↔ ∃ a v, p a = true ∧ v ∈ t.lang ∧ s = a :: v := by
  constructor
  · rintro ⟨_, ⟨a, ha, rfl⟩, v, hv, rfl⟩
    exact ⟨a, v, ha, hv, rfl⟩
  · rintro ⟨a, v, ha, hv, rfl⟩
    exact ⟨[a], ⟨a, ha, rfl⟩, v, hv, rfl⟩

theorem nil_mem_one : [] ∈ (one p).lang ↔ False := by
  rw [← nullable_iff]
  simp [nullable]

theorem cons_mem_one : a :: s ∈ (one p).lang ↔ p a = true ∧ s = [] := by
  constructor
  · rintro ⟨b, hb, h⟩
    cases h
    exact ⟨hb, rfl⟩
  · rintro ⟨ha, rfl⟩
    exact ⟨a, ha, rfl⟩

theorem nil_mem_one_seq : [] ∈ (seq (one p) t).lang ↔ False := by
  rw [← nullable_iff]
  simp [nullable]

theorem cons_mem_one_seq : a :: s ∈ (seq (one p) t).lang ↔ p a = true ∧ s ∈ t.lang := by
  rw [mem_one_seq]
  constructor
  · rintro ⟨b, v, hb, hv, h⟩
    cases h
    exact ⟨hb, hv⟩
  · rintro ⟨ha, hs⟩
    exact ⟨a, s, ha, hs, rfl⟩

theorem mem_alt : s ∈ (alt r t).lang ↔ s ∈ r.lang ∨ s ∈ t.lang := Language.mem_add _ _ _

theorem mem_opt : s ∈ (opt r).lang ↔ s = [] ∨ s ∈ r.lang := mem_alt

theorem mem_opt_seq : s ∈ (seq (opt r) t).lang ↔ s ∈ t.lang ∨ s ∈ (seq r t).lang := by
  rw [opt, lang, lang, add_mul, Language.mem_add, lang, one_mul]
  rfl

theorem mem_star_one : s ∈ (star (one p)).lang ↔ ∀ a ∈ s, p a = true := by
  constructor
  · exact Over.forall_mem (r := star (one p)) fun a ha => ha
  · intro h
    refine Language.mem_kstar.2 ⟨s.map ([·]), ?_, fun y hy => ?_⟩
    · rw [← List.flatMap_def, List.flatMap_singleton']
    · obtain ⟨a, ha, rfl⟩ := List.mem_map.1 hy
      exact ⟨a, h a ha, rfl⟩

theorem mem_one_seq_iff {Q : Nat → Prop} (ht : ∀ v, v ∈ t.lang ↔ Q v.length ∧ ∀ a ∈ v, p a = true) :
    s ∈ (seq (one p) t).lang ↔ (∃ n, s.length = n + 1 ∧ Q n) ∧ ∀ a ∈ s, p a = true := by
  rw [mem_one_seq]
  constructor
  · rintro ⟨a, v, ha, hv, rfl⟩
    obtain ⟨hQ, hall⟩ := (ht v).1 hv
    exact ⟨⟨v.length, rfl, hQ⟩, List.forall_mem_cons.2 ⟨ha, hall⟩⟩
  · rintro ⟨⟨n, hlength, hQ⟩, h⟩
    obtain ⟨a, v, rfl⟩ := List.exists_cons_of_length_eq_add_one hlength
    obtain rfl : v.length = n := Nat.succ.inj hlength
    rw [List.forall_mem_cons] at h
    exact ⟨a, v, h.1, (ht v).2 ⟨hQ, h.2⟩, rfl⟩

theorem mem_plus_one : s ∈ (plus (one p)).lang ↔ s ≠ [] ∧ ∀ a ∈ s, p a = true := by
  rw [plus, mem_one_seq_iff (Q := fun _ => True) fun v => by rw [mem_star_one, true_and]]
  cases s <;> simp

theorem mem_times_one (n : Nat) : s ∈ (times (one p) n).lang ↔ s.length = n ∧ ∀ a ∈ s, p a = true := by
  induction n generalizing s with
  | zero =>
    rw [List.length_eq_zero_iff]
    constructor
    · rintro rfl
      exact ⟨rfl, List.forall_mem_nil _⟩
    · exact fun h => h.1
  | succ n ih =>
    rw [times, mem_one_seq_iff (Q := (· = n)) fun v => ih]
    simp

theorem mem_upTo_one (n : Nat) : s ∈ (upTo (one p) n).lang ↔ s.length ≤ n ∧ ∀ a ∈ s, p a = true := by
  induction n generalizing s with
  | zero =>
    rw [Nat.le_zero, ← mem_times_one 0]
    rfl
  | succ n ih =>
    rw [upTo, opt, lang, Language.mem_add, mem_one_seq_iff (Q := (· ≤ n)) fun v => ih]
    cases s with
    | nil => exact iff_of_true (.inl rfl) ⟨Nat.zero_le _, List.forall_mem_nil _⟩
    | cons a v =>
      have hne : ¬ a :: v ∈ eps.lang := List.cons_ne_nil a v
      simp [hne]

theorem mem_one_seq_upTo (n : Nat) :
    s ∈ (seq (one p) (upTo (one p) n)).lang ↔ s ≠ [] ∧ s.length ≤ n + 1 ∧ ∀ a ∈ s, p a = true := by
  rw [mem_one_seq_iff (Q := (· ≤ n)) fun v => mem_upTo_one n, ← and_assoc]
  cases s <;> simp

/-- `n` letters of the class or more. -/
theorem mem_times_seq_star (n : Nat) :
    s ∈ (seq (times (one p) n) (star (one p))).lang ↔ n ≤ s.length ∧ ∀ a ∈ s, p a = true := by
  constructor
  · rintro ⟨u, hu, v, hv, rfl⟩
    obtain ⟨hlength, hall⟩ := (mem_times_one n).1 hu
    refine ⟨?_, List.forall_mem_append.2 ⟨hall, mem_star_one.1 hv⟩⟩
    rw [List.length_append]
    omega
  · rintro ⟨hlength, h⟩
    refine ⟨s.take n, (mem_times_one n).2 ⟨List.length_take_of_le hlength, fun a ha => ?_⟩, s.drop n,
      mem_star_one.2 fun a ha => ?_, List.take_append_drop n s⟩
    · exact h a (List.mem_of_mem_take ha)
    · exact h a (List.mem_of_mem_drop ha)

/-- The words that are put together from `parts`, each of which `f` has completed. -/
theorem exists_flatten_iff {l m : Language α} {f : List α → List α} (hf : ∀ x, x ∈ l ↔ ∃ y ∈ m, f y = x)
    (Q : Nat → Prop) :
    (∃ pieces : List (List α), s = pieces.flatten ∧ Q pieces.length ∧ ∀ piece ∈ pieces, piece ∈ l) ↔
      ∃ parts : List (List α), s = parts.flatMap f ∧ Q parts.length ∧ ∀ part ∈ parts, part ∈ m := by
  have hpieces : ∀ pieces : List (List α), (∀ piece ∈ pieces, piece ∈ l) →
      ∃ parts : List (List α), pieces = parts.map f ∧ ∀ part ∈ parts, part ∈ m := by
    intro pieces
    induction pieces with
    | nil => exact fun _ => ⟨[], rfl, List.forall_mem_nil _⟩
    | cons piece pieces ih =>
      intro h
      rw [List.forall_mem_cons] at h
      obtain ⟨part, hpart, rfl⟩ := (hf piece).1 h.1
      obtain ⟨parts, rfl, hparts⟩ := ih h.2
      exact ⟨part :: parts, rfl, List.forall_mem_cons.2 ⟨hpart, hparts⟩⟩
  constructor
  · rintro ⟨pieces, rfl, hQ, h⟩
    obtain ⟨parts, rfl, hparts⟩ := hpieces pieces h
    rw [List.length_map] at hQ
    exact ⟨parts, List.flatMap_def.symm, hQ, hparts⟩
  · rintro ⟨parts, rfl, hQ, hparts⟩
    refine ⟨parts.map f, List.flatMap_def, by rwa [List.length_map], fun piece hpiece => ?_⟩
    obtain ⟨part, hpart, rfl⟩ := List.mem_map.1 hpiece
    exact (hf _).2 ⟨part, hparts part hpart, rfl⟩

theorem mem_times (n : Nat) : s ∈ (times r n).lang ↔
    ∃ pieces : List (List α), s = pieces.flatten ∧ pieces.length = n ∧ ∀ piece ∈ pieces, piece ∈ r.lang := by
  have hlang : (times r n).lang = r.lang ^ n := by
    induction n with
    | zero => rfl
    | succ n ih => rw [times, lang, ih, pow_succ']
  rw [hlang, Language.mem_pow]

theorem mem_plus : s ∈ (plus r).lang ↔
    ∃ pieces : List (List α), s = pieces.flatten ∧ 0 < pieces.length ∧ ∀ piece ∈ pieces, piece ∈ r.lang := by
  constructor
  · rintro ⟨u, hu, _, ⟨pieces, rfl, hpieces⟩, rfl⟩
    exact ⟨u :: pieces, rfl, Nat.succ_pos _, List.forall_mem_cons.2 ⟨hu, hpieces⟩⟩
  · rintro ⟨pieces, rfl, hpos, hpieces⟩
    obtain ⟨u, pieces, rfl⟩ := List.exists_cons_of_length_pos hpos
    rw [List.forall_mem_cons] at hpieces
    exact ⟨u, hpieces.1, pieces.flatten, Language.join_mem_kstar hpieces.2, rfl⟩

section
variable [BEq α] [LawfulBEq α] {a b c : α}

theorem mem_letter_seq : s ∈ (seq (one (· == c)) r).lang ↔ ∃ u ∈ r.lang, c :: u = s := by
  rw [mem_one_seq]
  constructor
  · rintro ⟨a, u, ha, hu, rfl⟩
    exact ⟨u, hu, congrArg (· :: u) (eq_of_beq ha).symm⟩
  · rintro ⟨u, hu, rfl⟩
    exact ⟨c, u, beq_self_eq_true c, hu, rfl⟩

theorem mem_seq_letter : s ∈ (seq r (one (· == c))).lang ↔ ∃ u ∈ r.lang, u ++ [c] = s := by
  constructor
  · rintro ⟨u, hu, _, ⟨a, ha, rfl⟩, rfl⟩
    exact ⟨u, hu, congrArg (u ++ [·]) (eq_of_beq ha).symm⟩
  · rintro ⟨u, hu, rfl⟩
    exact ⟨u, hu, [c], ⟨c, beq_self_eq_true c, rfl⟩, rfl⟩

theorem mem_between : s ∈ (seq (one (· == a)) (seq r (one (· == b)))).lang ↔
    ∃ u, Words.between a b s = some u ∧ u ∈ r.lang := by
  rw [mem_letter_seq]
  constructor
  · rintro ⟨_, hv, rfl⟩
    obtain ⟨u, hu, rfl⟩ := mem_seq_letter.1 hv
    exact ⟨u, Words.between_eq_some_iff.2 rfl, hu⟩
  · rintro ⟨u, hs, hu⟩
    exact ⟨u ++ [b], mem_seq_letter.2 ⟨u, hu, rfl⟩, (Words.between_eq_some_iff.1 hs).symm⟩

omit [BEq α] [LawfulBEq α] in
theorem over_ne (h : p c = false) : (one p).Over (· ≠ c) := by
  rintro a ha rfl
  rw [h] at ha
  cases ha

omit [BEq α] [LawfulBEq α] in
theorem Over.free (hr : r.Over (· ≠ c)) {parts : List (List α)} (h : ∀ part ∈ parts, part ∈ r.lang) :
    ∀ part ∈ parts, c ∉ part :=
  fun part hpart hc => hr.forall_mem (h part hpart) c hc rfl

/-- Where what follows the letter is free of it, the word has been cut at the last one. -/
theorem mem_splitLast (ht : t.Over (· ≠ c)) : s ∈ (seq r (seq (one (· == c)) t)).lang ↔
    ∃ u v, Words.splitLast c s = some (u, v) ∧ u ∈ r.lang ∧ v ∈ t.lang := by
  constructor
  · rintro ⟨u, hu, _, hrest, rfl⟩
    obtain ⟨v, hv, rfl⟩ := mem_letter_seq.1 hrest
    exact ⟨u, v, Words.splitLast_append u fun hc => ht.forall_mem hv c hc rfl, hu, hv⟩
  · rintro ⟨u, v, hs, hu, hv⟩
    exact ⟨u, hu, c :: v, mem_letter_seq.2 ⟨v, hv, rfl⟩, (Words.eq_append_of_splitLast hs).symm⟩

/-- A first part, and then parts that `c` leads in, as many as `l` allows. -/
theorem mem_mul_led (hr : r.Over (· ≠ c)) {l : Language α} (Q : Nat → Prop)
    (hl : ∀ v, v ∈ l ↔ ∃ pieces : List (List α), v = pieces.flatten ∧ Q pieces.length ∧
      ∀ piece ∈ pieces, piece ∈ (seq (one (· == c)) r).lang) :
    s ∈ r.lang * l ↔ Q ((s.splitOn c).length - 1) ∧ ∀ part ∈ s.splitOn c, part ∈ r.lang := by
  have hl (v : List α) := (hl v).trans (exists_flatten_iff (fun _ => mem_letter_seq (c := c)) Q)
  constructor
  · rintro ⟨u, hu, v, hv, rfl⟩
    obtain ⟨parts, rfl, hQ, hparts⟩ := (hl v).1 hv
    have hall := List.forall_mem_cons.2 ⟨hu, hparts⟩
    have hsplit := List.splitOn_intercalate c (hr.free hall) (List.cons_ne_nil u parts)
    rw [Words.intercalate_cons] at hsplit
    rw [hsplit]
    exact ⟨hQ, hall⟩
  · rintro ⟨hQ, hall⟩
    have hs : [c].intercalate (s.splitOn c) = s := List.intercalate_splitOn c
    obtain ⟨u, parts, hsplit⟩ := List.exists_cons_of_ne_nil (List.splitOn_ne_nil c s)
    rw [hsplit, Words.intercalate_cons] at hs
    rw [hsplit] at hQ hall
    rw [List.forall_mem_cons] at hall
    exact ⟨u, hall.1, _, (hl _).2 ⟨parts, rfl, hQ, hall.2⟩, hs⟩

theorem mem_separated (hr : r.Over (· ≠ c)) :
    s ∈ (seq r (star (seq (one (· == c)) r))).lang ↔ ∀ part ∈ s.splitOn c, part ∈ r.lang := by
  have h := mem_mul_led (s := s) hr (l := (star (seq (one (· == c)) r)).lang) (fun _ => True)
    fun v => by simp [lang, Language.mem_kstar]
  rwa [true_and] at h

theorem mem_separated_times (hr : r.Over (· ≠ c)) (n : Nat) :
    s ∈ (seq r (times (seq (one (· == c)) r) n)).lang ↔
      (s.splitOn c).length = n + 1 ∧ ∀ part ∈ s.splitOn c, part ∈ r.lang := by
  have h := mem_mul_led (s := s) hr (· = n) fun v => mem_times n
  have hpos := List.length_pos_of_ne_nil (List.splitOn_ne_nil c s)
  rwa [show (s.splitOn c).length - 1 = n ↔ (s.splitOn c).length = n + 1 by omega] at h

theorem mem_terminated (hr : r.Over (· ≠ c)) (ht : t.Over (· ≠ c)) :
    s ∈ (seq (plus (seq r (one (· == c)))) t).lang ↔ 2 ≤ (s.splitOn c).length ∧
      (∀ part ∈ (s.splitOn c).dropLast, part ∈ r.lang) ∧ (s.splitOn c).getLastD [] ∈ t.lang := by
  have hplus (u : List α) := (mem_plus (r := seq r (one (· == c)))).trans
    (exists_flatten_iff (s := u) (fun _ => mem_seq_letter) (0 < ·))
  constructor
  · rintro ⟨u, hu, v, hv, rfl⟩
    obtain ⟨parts, rfl, hpos, hparts⟩ := (hplus u).1 hu
    have hfree : ∀ part ∈ parts ++ [v], c ∉ part := by
      refine List.forall_mem_append.2 ⟨hr.free hparts, ?_⟩
      exact ht.free (List.forall_mem_singleton.2 hv)
    have hsplit := List.splitOn_intercalate c hfree (by simp)
    rw [Words.intercalate_concat] at hsplit
    rw [hsplit, List.dropLast_concat, List.getLastD_concat, List.length_append]
    exact ⟨Nat.succ_le_succ hpos, hparts, hv⟩
  · rintro ⟨hlength, hparts, hlast⟩
    have hs : [c].intercalate (s.splitOn c) = s := List.intercalate_splitOn c
    rcases List.eq_nil_or_concat' (s.splitOn c) with hnil | ⟨parts, v, hsplit⟩
    · exact absurd hnil (List.splitOn_ne_nil c s)
    · rw [hsplit, Words.intercalate_concat] at hs
      rw [hsplit] at hlength hparts hlast
      rw [List.length_append] at hlength
      rw [List.dropLast_concat] at hparts
      rw [List.getLastD_concat] at hlast
      exact ⟨_, (hplus _).2 ⟨parts, rfl, Nat.lt_of_succ_lt_succ hlength, hparts⟩, v, hlast, hs⟩

end

end Regex
