import Mathlib.Order.MinMax
import Mathlib.Data.List.Basic

/-!
# Progress kept as a high-water mark

A list of items is worked off from the front, each item leaves its key behind,
and what is still to be done is read off the greatest key left behind: the
items whose keys are greater. The marks need not be complete – a mark of the
last item that was done stands for all the items before it.

The greatest mark is looked up where the marks are kept, and the items are
compared with it where they are worked off. Those may be different programs,
so there are two orders of the keys here: one for `greatest`, one for
`pendingAfter`.

On a list whose keys increase in the second order the work never starts too
late: whatever initial segment the marks cover, what is pending is the rest,
perhaps after some items of the segment (`pendingAfter_greatest`). When the
keys increase in the first order as well, it is the rest alone. On a list whose
keys do not increase, an item whose key is not above that of an earlier one is
not found when the earlier one is the last that was done.
-/

namespace Store

variable {α κ : Type} (key : α → κ)

/-- What is to be done after a mark: the items with greater keys, or
everything when there is no mark. -/
def pendingAfter [LinearOrder κ] (last : Option κ) (items : List α) : List α :=
  match last with
  | none => items
  | some m => items.filter (m < key ·)

/-- The marks belong to the items of an initial segment, and its last item
has left its own. -/
structure Covers (seen : List α) (marks : List κ) : Prop where
  mem : ∀ m ∈ marks, ∃ a ∈ seen, key a = m
  last : ∀ a ∈ seen.getLast?, key a ∈ marks

variable {key}

theorem Covers.nil : Covers key [] [] :=
  ⟨fun _ h => absurd h List.not_mem_nil, fun _ h => nomatch h⟩

/-- One more item is done. -/
theorem Covers.concat {seen : List α} {marks : List κ} (h : Covers key seen marks)
    (a : α) : Covers key (seen ++ [a]) (marks ++ [key a]) where
  mem m hm := by
    rcases List.mem_append.mp hm with hm | hm
    · obtain ⟨b, hb, hbm⟩ := h.mem m hm
      exact ⟨b, List.mem_append_left _ hb, hbm⟩
    · exact ⟨a, List.mem_append_right _ (List.mem_singleton_self a),
        (List.mem_singleton.mp hm).symm⟩
  last b hb := by
    have hab : a = b := by simpa using hb
    exact List.mem_append_right _ (hab ▸ List.mem_singleton_self _)

/-- A segment whose last item left its mark is covered by that mark alone. -/
theorem Covers.single (seen : List α) (a : α) : Covers key (seen ++ [a]) [key a] where
  mem m hm := ⟨a, by simp, (List.mem_singleton.mp hm).symm⟩
  last b hb := by
    have hab : a = b := by simpa using hb
    exact hab ▸ List.mem_singleton_self _

/-- The mark of an item of the segment may be left once more. -/
theorem Covers.again {seen : List α} {marks : List κ} (h : Covers key seen marks)
    {a : α} (ha : a ∈ seen) : Covers key seen (marks ++ [key a]) where
  mem m hm := by
    rcases List.mem_append.mp hm with hm | hm
    · exact h.mem m hm
    · exact ⟨a, ha, (List.mem_singleton.mp hm).symm⟩
  last b hb := List.mem_append_left _ (h.last b hb)

/-- An item of the segment that has not left its mark is not the last one. -/
theorem Covers.rest_ne_nil {front back : List α} {a : α} {marks : List κ}
    (h : Covers key (front ++ a :: back) marks) (ha : key a ∉ marks) : back ≠ [] := by
  rintro rfl
  exact ha (h.last a (by simp))

/-- The greatest mark. -/
def greatest (order : LinearOrder κ) (marks : List κ) : Option κ :=
  @List.max? κ order.toMax marks

theorem greatest_eq_some_iff (order : LinearOrder κ) {marks : List κ} {m : κ} :
    greatest order marks = some m ↔ m ∈ marks ∧ ∀ m' ∈ marks, m' ≤ m :=
  List.max?_eq_some_iff

theorem greatest_eq_none_iff (order : LinearOrder κ) {marks : List κ} :
    greatest order marks = none ↔ marks = [] :=
  @List.max?_eq_none_iff κ marks order.toMax

variable [LinearOrder κ] {seen rest : List α} {marks : List κ}

/-- The items that are left have not left their marks. -/
theorem Covers.not_mem (h : Covers key seen marks)
    (hkeys : (seen ++ rest).Pairwise (key · < key ·)) {a : α} (ha : a ∈ rest) :
    key a ∉ marks := by
  intro hm
  obtain ⟨b, hb, hba⟩ := h.mem _ hm
  have hlt : key b < key a := (List.pairwise_append.mp hkeys).2.2 b hb a ha
  exact absurd hba hlt.ne

/-- Above an item of a list whose keys increase is what stands after it. -/
theorem pendingAfter_key {before after : List α} {a : α}
    (hkeys : (before ++ a :: after).Pairwise (key · < key ·)) :
    pendingAfter key (some (key a)) (before ++ a :: after) = after := by
  obtain ⟨-, hafter, hcross⟩ := List.pairwise_append.mp hkeys
  obtain ⟨hlt, -⟩ := List.pairwise_cons.mp hafter
  show (before ++ a :: after).filter (key a < key ·) = after
  have hbefore : before.filter (key a < key ·) = [] := by
    refine List.filter_eq_nil_iff.mpr fun b hb => ?_
    rw [decide_eq_true_eq, not_lt]
    exact (hcross b hb a List.mem_cons_self).le
  have hrest : after.filter (key a < key ·) = after :=
    List.filter_eq_self.mpr fun b hb => decide_eq_true (hlt b hb)
  rw [List.filter_append, hbefore, List.nil_append,
    List.filter_cons_of_neg (by simp), hrest]

/-- **What is pending ends in what is left**, whatever the order in which the
greatest mark is looked up: the work never starts too late. -/
theorem pendingAfter_greatest {κ : Type} {key : α → κ} (order : LinearOrder κ) [LinearOrder κ]
    {seen rest : List α} {marks : List κ} (h : Covers key seen marks)
    (hkeys : (seen ++ rest).Pairwise (key · < key ·)) :
    ∃ again, again <:+ seen ∧
      pendingAfter key (greatest order marks) (seen ++ rest) = again ++ rest := by
  cases hmax : greatest order marks with
  | none => exact ⟨seen, List.suffix_rfl, rfl⟩
  | some m =>
    obtain ⟨a, ha, rfl⟩ := h.mem m ((greatest_eq_some_iff order).mp hmax).1
    obtain ⟨before, after, rfl⟩ := List.append_of_mem ha
    refine ⟨after, ⟨before ++ [a], by simp⟩, ?_⟩
    rw [List.append_assoc, List.cons_append] at hkeys ⊢
    exact pendingAfter_key hkeys

end Store
