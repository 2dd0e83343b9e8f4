import Mathlib.Data.List.Basic

/-!
# Dictionaries in insertion order

A dictionary is a list of entries. Setting an existing key keeps its place,
setting a new one appends it; removing a key forgets its place.

The order is part of the value. Two dictionaries that give the same answer under
every key may still be different lists, and code that iterates over one of them
sees the difference: which provider is asked first, which parameter comes first
in a request. Where only the answers matter, statements are about `get`.

Nothing keeps a list from having a key twice. `set` and `update` do not make one
that has (`nodup_keys_update`), and for the others `get` finds the first entry,
as a lookup from the front does.
-/

namespace Store

/-- A dictionary in insertion order. -/
abbrev Dict (K V : Type) := List (K × V)

namespace Dict

variable {K V : Type} [DecidableEq K]

/-- `d[k] = v`. A key that is there keeps its place. -/
def set : Dict K V → K → V → Dict K V
  | [], k, v => [(k, v)]
  | e :: d, k, v => if e.1 = k then (k, v) :: d else e :: set d k v

/-- `d.pop(k, None)`, the dictionary after it. -/
def pop (d : Dict K V) (k : K) : Dict K V := d.filter fun e => e.1 ≠ k

/-- `d.get(k)`. -/
def get : Dict K V → K → Option V
  | [], _ => none
  | e :: d, k => if e.1 = k then some e.2 else get d k

/-- `d.update(d')`, one entry after the other. -/
def update (d d' : Dict K V) : Dict K V := d'.foldl (fun d e => d.set e.1 e.2) d

@[simp] theorem get_nil (k : K) : get ([] : Dict K V) k = none := rfl

@[simp] theorem get_cons (e : K × V) (d : Dict K V) (k : K) :
    get (e :: d) k = if e.1 = k then some e.2 else get d k := rfl

/-- What was put in is found. -/
@[simp] theorem get_set_self (d : Dict K V) (k : K) (v : V) :
    (d.set k v).get k = some v := by
  induction d with
  | nil => simp [set]
  | cons e d ih =>
    by_cases h : e.1 = k
    · simp [set, h]
    · simp [set, h, ih]

/-- Nothing else is concerned. -/
@[simp] theorem get_set_ne (d : Dict K V) {k k' : K} (v : V) (h : k' ≠ k) :
    (d.set k v).get k' = d.get k' := by
  induction d with
  | nil => simp [set, Ne.symm h]
  | cons e d ih =>
    by_cases he : e.1 = k
    · simp [set, he, Ne.symm h]
    · simp [set, he, ih]

/-- Both at once. -/
theorem get_set (d : Dict K V) (k k' : K) (v : V) :
    (d.set k v).get k' = if k' = k then some v else d.get k' := by
  by_cases h : k' = k
  · simp [h]
  · simp [h]

/-- A new key comes last. -/
theorem set_of_notMem {d : Dict K V} {k : K} (v : V) (h : ∀ e ∈ d, e.1 ≠ k) :
    d.set k v = d ++ [(k, v)] := by
  induction d with
  | nil => rfl
  | cons e d ih =>
    rw [set, if_neg (h e List.mem_cons_self), ih fun e' he' => h e' (List.mem_cons_of_mem e he'),
      List.cons_append]

/-- An entry is the new one, or was there. -/
theorem mem_set {d : Dict K V} {k : K} {v : V} {e : K × V} (h : e ∈ d.set k v) :
    e = (k, v) ∨ e ∈ d := by
  induction d with
  | nil => simpa [set] using h
  | cons e' d ih =>
    by_cases he : e'.1 = k
    · simp only [set, he, if_true, List.mem_cons] at h
      exact h.imp id (List.mem_cons_of_mem e')
    · simp only [set, he, if_false, List.mem_cons] at h
      rcases h with rfl | h
      · exact .inr List.mem_cons_self
      · exact (ih h).imp id (List.mem_cons_of_mem e')

/-- So are the keys. -/
theorem mem_keys_set {d : Dict K V} {k k' : K} {v : V} :
    k' ∈ (d.set k v).map Prod.fst ↔ k' = k ∨ k' ∈ d.map Prod.fst := by
  induction d with
  | nil => simp [set]
  | cons e d ih =>
    by_cases he : e.1 = k
    · simp [set, he]
    · simp only [set, he, if_false, List.map_cons, List.mem_cons, ih, or_left_comm]

/-- The keys stay distinct. By induction on the entries, since a key that is there
is replaced where it is. -/
theorem nodup_keys_set {d : Dict K V} {k : K} {v : V} (h : (d.map Prod.fst).Nodup) :
    ((d.set k v).map Prod.fst).Nodup := by
  induction d with
  | nil => simp [set]
  | cons e d ih =>
    obtain ⟨hnew, hd⟩ := List.nodup_cons.mp h
    by_cases he : e.1 = k
    · simp only [set, he, if_true, List.map_cons, List.nodup_cons]
      exact ⟨he ▸ hnew, hd⟩
    · simp only [set, he, if_false, List.map_cons, List.nodup_cons]
      exact ⟨fun hmem => (mem_keys_set.mp hmem).elim he hnew, ih hd⟩

/-- They also do when many are put in. -/
theorem nodup_keys_update {d d' : Dict K V} (h : (d.map Prod.fst).Nodup) :
    ((d.update d').map Prod.fst).Nodup := by
  induction d' generalizing d with
  | nil => exact h
  | cons e d' ih => exact ih (nodup_keys_set h)

/-- What is found is an entry. -/
theorem mem_of_get {d : Dict K V} {k : K} {v : V} (h : d.get k = some v) : (k, v) ∈ d := by
  induction d with
  | nil => cases h
  | cons e d ih =>
    rw [get_cons] at h
    split at h
    · rename_i he
      cases h
      rw [← he]
      exact List.mem_cons_self
    · exact List.mem_cons_of_mem e (ih h)

/-- An entry is found, if the keys are distinct. -/
theorem get_of_mem {d : Dict K V} (h : (d.map Prod.fst).Nodup) {e : K × V} (he : e ∈ d) :
    d.get e.1 = some e.2 := by
  induction d with
  | nil => cases he
  | cons a d ih =>
    obtain ⟨hnew, hd⟩ := List.nodup_cons.mp h
    rw [get_cons]
    rcases List.mem_cons.mp he with rfl | he
    · rw [if_pos rfl]
    · have hne : a.1 ≠ e.1 := fun heq => hnew (heq ▸ List.mem_map_of_mem he)
      rw [if_neg hne]
      exact ih hd he

/-- Updating with entries whose values are those of a function. -/
theorem get_update {d d' : Dict K V} {f : K → V} (h : ∀ e ∈ d', e.2 = f e.1) (k : K) :
    (d.update d').get k = if k ∈ d'.map Prod.fst then some (f k) else d.get k := by
  unfold update
  induction d' generalizing d with
  | nil => simp
  | cons e d' ih =>
    rw [List.foldl_cons, ih fun e' he' => h e' (List.mem_cons_of_mem e he'), get_set,
      h e List.mem_cons_self]
    by_cases hk : k ∈ d'.map Prod.fst
    · simp [hk]
    · by_cases he : k = e.1
      · simp [he]
      · simp [hk, he]

/-- Entries can be put in in two lots. -/
theorem update_append (d a b : Dict K V) : d.update (a ++ b) = (d.update a).update b :=
  List.foldl_append

/-- Entries of other keys. -/
theorem get_update_of_notMem {d d' : Dict K V} {k : K} (h : ∀ e ∈ d', e.1 ≠ k) :
    (d.update d').get k = d.get k := by
  unfold update
  induction d' generalizing d with
  | nil => rfl
  | cons e d' ih =>
    obtain ⟨he, hd'⟩ := List.forall_mem_cons.mp h
    rw [List.foldl_cons, ih hd', get_set_ne _ _ (Ne.symm he)]

/-- **The last entry of a key counts.** A key that is set again keeps its place, as
in a `dict`, and loses its value. -/
theorem get_update_last {d a b : Dict K V} {k : K} (v : V) (h : ∀ e ∈ b, e.1 ≠ k) :
    (d.update (a ++ (k, v) :: b)).get k = some v := by
  rw [update_append]
  exact (get_update_of_notMem h).trans (get_set_self _ k v)

/-- What is found was there or is one of the entries. -/
theorem mem_of_get_update {d d' : Dict K V} {k : K} {v : V}
    (h : (d.update d').get k = some v) : (k, v) ∈ d' ∨ d.get k = some v := by
  unfold update at h
  induction d' generalizing d with
  | nil => exact .inr h
  | cons e d' ih =>
    rcases ih h with hmem | hget
    · exact .inl (List.mem_cons_of_mem e hmem)
    · rw [get_set] at hget
      split at hget
      · rename_i hk
        cases hget
        exact .inl (hk ▸ List.mem_cons_self)
      · exact .inr hget

@[simp] theorem get_pop_self (d : Dict K V) (k : K) : (d.pop k).get k = none := by
  induction d with
  | nil => rfl
  | cons e d ih =>
    by_cases h : e.1 = k
    · simpa [pop, h] using ih
    · simpa [pop, h] using ih

@[simp] theorem get_pop_ne (d : Dict K V) {k k' : K} (h : k' ≠ k) :
    (d.pop k).get k' = d.get k' := by
  induction d with
  | nil => rfl
  | cons e d ih =>
    by_cases he : e.1 = k
    · simpa [pop, he, Ne.symm h] using ih
    · by_cases hk : e.1 = k'
      · simp [pop, hk, h]
      · simpa [pop, he, hk] using ih

/-- The first entry of a key counts. -/
theorem get_append (d d' : Dict K V) (k : K) :
    get (d ++ d') k = (get d k).or (get d' k) := by
  induction d with
  | nil => rfl
  | cons e d ih =>
    by_cases h : e.1 = k
    · simp [h]
    · simpa [h] using ih

/-- Keeping the entries of some keys. -/
theorem get_filter (d : Dict K V) (p : K → Prop) [DecidablePred p] (k : K) :
    get (d.filter fun e => p e.1) k = if p k then get d k else none := by
  induction d with
  | nil => simp
  | cons e d ih =>
    by_cases he : p e.1
    · by_cases hk : e.1 = k
      · subst hk
        simp [he]
      · simpa [he, hk] using ih
    · by_cases hk : e.1 = k
      · subst hk
        simpa [he] using ih
      · simpa [he, hk] using ih

end Dict

end Store
