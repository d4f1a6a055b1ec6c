import Mathlib.Algebra.GroupWithZero.Nat
import Mathlib.Data.List.Basic

/-!
# Places in a filtered list

Several parties keep their entries in one list, each under the index it was appended at. `place p l i` is where
the entry `i` of the list stands among the entries of the party `p`. Appending, setting and looking up an own
entry of the whole list is the same operation at its place in the party's list; what another party does there
leaves the party's list alone.
-/

namespace Places

variable {α : Type} (p : α → Bool)

/-- How many entries before the index `i` satisfy `p`. -/
def place (l : List α) (i : Nat) : Nat := ((l.take i).filter p).length

variable {p} {l : List α} {i : Nat} {x y : α}

theorem split_of_getElem? (h : l[i]? = some y) : l = l.take i ++ y :: l.drop (i + 1) ∧ (l.take i).length = i := by
  obtain ⟨hi, rfl⟩ := List.getElem?_eq_some_iff.1 h
  refine ⟨?_, by rw [List.length_take]; omega⟩
  rw [List.getElem_cons_drop, List.take_append_drop]

theorem set_split (h : l[i]? = some y) (x : α) : l.set i x = l.take i ++ x :: l.drop (i + 1) := by
  obtain ⟨hi, -⟩ := List.getElem?_eq_some_iff.1 h
  rw [List.set_eq_take_append_cons_drop, if_pos hi]

theorem getElem?_place (h : l[i]? = some y) (hy : p y = true) : (l.filter p)[place p l i]? = some y := by
  obtain ⟨hsplit, -⟩ := split_of_getElem? h
  have hfilter : l.filter p = (l.take i).filter p ++ y :: (l.drop (i + 1)).filter p := by
    conv_lhs => rw [hsplit]
    rw [List.filter_append, List.filter_cons_of_pos hy]
  rw [hfilter, place, List.getElem?_append_right (Nat.le_refl _), Nat.sub_self]
  rfl

theorem filter_set (h : l[i]? = some y) (hy : p y = true) (hx : p x = true) :
    (l.set i x).filter p = (l.filter p).set (place p l i) x := by
  obtain ⟨hsplit, -⟩ := split_of_getElem? h
  have hfilter : l.filter p = (l.take i).filter p ++ y :: (l.drop (i + 1)).filter p := by
    conv_lhs => rw [hsplit]
    rw [List.filter_append, List.filter_cons_of_pos hy]
  rw [set_split h, List.filter_append, List.filter_cons_of_pos hx, hfilter, place,
    List.set_append_right _ _ (Nat.le_refl _), Nat.sub_self]
  rfl

theorem filter_set_of_not (h : l[i]? = some y) (hy : p y = false) (hx : p x = false) :
    (l.set i x).filter p = l.filter p := by
  obtain ⟨hsplit, -⟩ := split_of_getElem? h
  conv_rhs => rw [hsplit]
  rw [set_split h, List.filter_append, List.filter_append, List.filter_cons_of_neg (by simp [hx]),
    List.filter_cons_of_neg (by simp [hy])]

theorem sum_map_set (f : α → Nat) (h : l[i]? = some y) (x : α) :
    ((l.set i x).map f).sum + f y = (l.map f).sum + f x := by
  obtain ⟨hsplit, -⟩ := split_of_getElem? h
  have hold : (l.map f).sum = ((l.take i).map f).sum + (f y + ((l.drop (i + 1)).map f).sum) := by
    conv_lhs => rw [hsplit]
    rw [List.map_append, List.map_cons, List.sum_append, List.sum_cons]
  have hnew : ((l.set i x).map f).sum = ((l.take i).map f).sum + (f x + ((l.drop (i + 1)).map f).sum) := by
    rw [set_split h, List.map_append, List.map_cons, List.sum_append, List.sum_cons]
  omega

theorem place_length (l : List α) : place p l l.length = (l.filter p).length := by
  rw [place, List.take_length]

theorem place_append (hi : i ≤ l.length) (m : List α) : place p (l ++ m) i = place p l i := by
  rw [place, List.take_append_of_le_length hi, place]

theorem place_set {j : Nat} (h : l[j]? = some y) (hxy : p x = p y) (i : Nat) : place p (l.set j x) i = place p l i := by
  rw [place, place, ← List.countP_eq_length_filter, ← List.countP_eq_length_filter, List.take_set]
  rcases Nat.lt_or_ge j i with hlt | hge
  · have hj : (l.take i)[j]? = some y := by rw [List.getElem?_take_of_lt hlt, h]
    obtain ⟨hsplit, -⟩ := split_of_getElem? hj
    conv_rhs => rw [hsplit]
    rw [set_split hj, List.countP_append, List.countP_append, List.countP_cons, List.countP_cons, hxy]
  · rw [List.set_eq_of_length_le (by rw [List.length_take]; omega)]

end Places
