import Yascheduler.Store.RowStore

/-!
# References between two tables

The rows of one table may refer to rows of another. Under READ COMMITTED, two
transactions can break a reference without either of them seeing it: one
deletes the row that is referred to while the other one writes a reference to
it. What prevents this is that each waits for the other: a reference is
written only to a row that nobody is deleting, and a row is deleted only while
no other transaction holds a row that refers to it.

`Linked` is what these two rules keep. It implies that every transaction, at
any time, sees a row behind every reference it sees.

## Why both rules are needed

A writer that only looks whether the row is there can be overtaken by a deletion
that has not committed yet; a deletion that only looks at the committed
references can be overtaken by a writer that has not. Each of the two sees a
consistent database, and what they commit is not. With both rules one of them
always waits for the other, and looks again when it may go on.
-/

namespace Store

variable {K V K' V' O : Type} [DecidableEq O]

namespace RowStore

section

variable (p : RowStore K' V' O) {o o' : O} {n : K'}

/-- The end of another transaction without its writes changes nothing that a
transaction sees. -/
theorem read_rollback_ne (h : o' ≠ o) : (p.rollback o).read o' n = p.read o' n := by
  by_cases hown : ∃ v, p.locks n = some (o', v)
  · obtain ⟨v, hv⟩ := hown
    have hkept : (p.rollback o).locks n = some (o', v) :=
      p.rollback_locks_eq_some.mpr ⟨hv, h⟩
    rw [(p.rollback o).read_of_locked hkept, p.read_of_locked hv]
  · have hrows : p.read o' n = p.rows n := by
      by_contra hne
      exact hown ⟨_, p.locked_of_read_ne hne⟩
    rw [hrows]
    by_contra hne
    exact hown ⟨_, (p.rollback_locks_eq_some.mp
      ((p.rollback o).locked_of_read_ne hne)).1⟩

/-- After the COMMIT of another transaction, a transaction sees what it saw
before, or what has been committed. -/
theorem read_commit_ne (h : o' ≠ o) : (p.commit o).read o' n = p.read o' n ∨
    p.locks n = some (o, (p.commit o).read o' n) := by
  by_cases hown : ∃ v, p.locks n = some (o', v)
  · obtain ⟨v, hv⟩ := hown
    have hkept : (p.commit o).locks n = some (o', v) :=
      p.commit_locks_eq_some.mpr ⟨hv, h⟩
    rw [(p.commit o).read_of_locked hkept, p.read_of_locked hv]
    exact .inl rfl
  · have hrows : p.read o' n = p.rows n := by
      by_contra hne
      exact hown ⟨_, p.locked_of_read_ne hne⟩
    have hrows' : (p.commit o).read o' n = p.read o n := by
      by_contra hne
      exact hown ⟨_, (p.commit_locks_eq_some.mp
        ((p.commit o).locked_of_read_ne hne)).1⟩
    rw [hrows, hrows']
    by_cases hsame : p.read o n = p.rows n
    · exact .inl hsame
    · exact .inr (p.locked_of_read_ne hsame)

end

/-- **References are kept**: to committed rows, to the rows a transaction has
written, and against the deletions that are pending. The last is what a foreign key
needs its locks for: a deletion that is committed later must find no reference that
was committed meanwhile. -/
structure Linked (ref : V → Option K') (s : RowStore K V O) (p : RowStore K' V' O) :
    Prop where
  /-- a committed reference is to a committed row -/
  committed : ∀ k r n, s.rows k = some r → ref r = some n → p.rows n ≠ none
  /-- a transaction sees the rows its own writes refer to -/
  written : ∀ k o r n, s.locks k = some (o, some r) → ref r = some n → p.read o n ≠ none
  /-- whoever deletes a row has locked all rows that refer to it -/
  cleared : ∀ n o k r, p.locks n = some (o, none) → s.rows k = some r → ref r = some n →
    ∃ v, s.locks k = some (o, v)
  /-- nobody writes a reference to a row that is being deleted -/
  undeleted : ∀ n o k o' r, p.locks n = some (o, none) → s.locks k = some (o', some r) →
    ref r ≠ some n

namespace Linked

variable {ref : V → Option K'} {s : RowStore K V O} {p : RowStore K' V' O} {o : O}

omit [DecidableEq O] in
/-- The committed row of a key that a transaction does not see is being
deleted by it. -/
theorem of_read_eq_none [DecidableEq O] {n : K'} (hn : p.rows n ≠ none)
    (hread : p.read o n = none) : p.locks n = some (o, none) := by
  have hne : p.read o n ≠ p.rows n := fun he => hn (he ▸ hread)
  rw [p.locked_of_read_ne hne, hread]

/-- **Every transaction sees the row behind a reference.** It is what a reader relies
on who looks a reference up in the same transaction. -/
theorem read (h : s.Linked ref p) {k : K} {r : V} {n : K'} (hread : s.read o k = some r)
    (hr : ref r = some n) : p.read o n ≠ none := by
  by_cases hsame : s.read o k = s.rows k
  · intro hnone
    rw [hread] at hsame
    have hdel := of_read_eq_none (h.committed k r n hsame.symm hr) hnone
    obtain ⟨v, hlock⟩ := h.cleared n o k r hdel hsame.symm hr
    rw [s.read_of_locked hlock] at hread
    subst hread
    exact h.undeleted n o k o r hdel hlock hr
  · have hlock := s.locked_of_read_ne hsame
    rw [hread] at hlock
    exact h.written k o r n hlock hr

/-- A reference that a transaction sees on a row it may write is not to a row
that is being deleted. -/
theorem not_deleted (h : s.Linked ref p) {k : K} {r : V} {n : K'}
    (hread : s.read o k = some r) (hother : s.lockedByOther o k = false)
    (hr : ref r = some n) (o' : O) : p.locks n ≠ some (o', none) := by
  intro hdel
  by_cases hsame : s.read o k = s.rows k
  · rw [hread] at hsame
    obtain ⟨v, hlock⟩ := h.cleared n o' k r hdel hsame.symm hr
    obtain rfl : o' = o := s.not_locked_of_not_lockedByOther hother hlock
    rw [s.read_of_locked hlock] at hread
    subst hread
    exact h.undeleted n o' k o' r hdel hlock hr
  · have hlock := s.locked_of_read_ne hsame
    rw [hread] at hlock
    exact h.undeleted n o' k o r hdel hlock hr

omit [DecidableEq O] in
/-- It is enough to look at the committed rows at first. -/
theorem of_unlocked [DecidableEq O]
    (hrows : ∀ k r n, s.rows k = some r → ref r = some n → p.rows n ≠ none)
    (hs : ∀ k, s.locks k = none) (hp : ∀ n, p.locks n = none) : s.Linked ref p where
  committed := hrows
  written k o r n hl := by rw [hs k] at hl; cases hl
  cleared n o k r hl := by rw [hp n] at hl; cases hl
  undeleted n o k o' r hl := by rw [hp n] at hl; cases hl

/-! ## The end of a transaction

Neither end looks at the other table. A COMMIT publishes writes that were
checked when they were made, and the checks must still hold although others
have committed meanwhile; this is what the last two parts of `Linked` are kept
for. -/

/-- A COMMIT chooses values that were looked at when they were written. -/
theorem commit (h : s.Linked ref p) (o : O) : (s.commit o).Linked ref (p.commit o) where
  committed k r n hrow hr := h.read hrow hr
  written k o' r n hl hr := by
    obtain ⟨hlock, ho⟩ := s.commit_locks_eq_some.mp hl
    intro hnone
    rcases p.read_commit_ne (n := n) ho with hsame | hdel
    · exact h.written k o' r n hlock hr (hsame ▸ hnone)
    · rw [hnone] at hdel
      exact h.undeleted n o k o' r hdel hlock hr
  cleared n o' k r hl hrow hr := by
    obtain ⟨hlock, ho⟩ := p.commit_locks_eq_some.mp hl
    by_cases hsame : s.read o k = s.rows k
    · rw [s.commit_rows, hsame] at hrow
      obtain ⟨v, hv⟩ := h.cleared n o' k r hlock hrow hr
      exact ⟨v, s.commit_locks_eq_some.mpr ⟨hv, ho⟩⟩
    · have hown := s.locked_of_read_ne hsame
      rw [← s.commit_rows, hrow] at hown
      exact absurd hr (h.undeleted n o' k o r hlock hown)
  undeleted n o' k o'' r hl hl' :=
    h.undeleted n o' k o'' r (p.commit_locks_eq_some.mp hl).1
      (s.commit_locks_eq_some.mp hl').1

/-- A ROLLBACK gives up the writes, and the deletions with them. -/
theorem rollback (h : s.Linked ref p) (o : O) :
    (s.rollback o).Linked ref (p.rollback o) where
  committed := h.committed
  written k o' r n hl hr := by
    obtain ⟨hlock, ho⟩ := s.rollback_locks_eq_some.mp hl
    rw [p.read_rollback_ne ho]
    exact h.written k o' r n hlock hr
  cleared n o' k r hl hrow hr := by
    obtain ⟨hlock, ho⟩ := p.rollback_locks_eq_some.mp hl
    obtain ⟨v, hv⟩ := h.cleared n o' k r hlock hrow hr
    exact ⟨v, s.rollback_locks_eq_some.mpr ⟨hv, ho⟩⟩
  undeleted n o' k o'' r hl hl' :=
    h.undeleted n o' k o'' r (p.rollback_locks_eq_some.mp hl).1
      (s.rollback_locks_eq_some.mp hl').1

/-! ## Writes

The hypotheses of each lemma are what a statement has to wait for. A statement
that does not wait for one of them breaks the invariant, and so does one that
waits but does not look again. -/

/-- Writing a row that refers to what its transaction sees, and that nobody is
deleting. -/
theorem write [DecidableEq K] (h : s.Linked ref p) {k : K} {r : V}
    (hother : s.lockedByOther o k = false)
    (hr : ∀ n, ref r = some n → p.read o n ≠ none ∧ ∀ o', p.locks n ≠ some (o', none)) :
    (s.write o k (some r)).Linked ref p where
  committed := h.committed
  written k' o' r' n hl hr' := by
    by_cases hk : k' = k
    · subst hk
      rw [s.write_locks_self] at hl
      cases hl
      exact (hr n hr').1
    · rw [s.write_locks_ne hk] at hl
      exact h.written k' o' r' n hl hr'
  cleared n o' k' r' hl hrow hr' := by
    obtain ⟨v, hv⟩ := h.cleared n o' k' r' hl hrow hr'
    by_cases hk : k' = k
    · subst hk
      obtain rfl : o' = o := s.not_locked_of_not_lockedByOther hother hv
      exact ⟨some r, s.write_locks_self⟩
    · exact ⟨v, (s.write_locks_ne hk).trans hv⟩
  undeleted n o' k' o'' r' hl hl' := by
    by_cases hk : k' = k
    · subst hk
      rw [s.write_locks_self] at hl'
      cases hl'
      exact fun hr' => (hr n hr').2 o' hl
    · rw [s.write_locks_ne hk] at hl'
      exact h.undeleted n o' k' o'' r' hl hl'

/-- Writing a row that is referred to. It stays one. -/
theorem writeParent [DecidableEq K'] (h : s.Linked ref p) {n : K'} {v : V'}
    (hother : p.lockedByOther o n = false) : s.Linked ref (p.write o n (some v)) where
  committed := h.committed
  written k o' r n' hl hr := by
    have hseen := h.written k o' r n' hl hr
    by_cases hn : n' = n
    · subst hn
      by_cases ho : o = o'
      · subst ho
        rw [read_of_locked _ p.write_locks_self]
        exact Option.some_ne_none v
      · rw [read_of_other _ p.write_locks_self ho, p.write_rows]
        have hrows : p.read o' n' = p.rows n' := by
          by_contra hne
          exact ho (p.not_locked_of_not_lockedByOther hother
            (p.locked_of_read_ne hne)).symm
        rwa [← hrows]
    · unfold RowStore.read at hseen ⊢
      rwa [p.write_locks_ne hn]
  cleared n' o' k r hl hrow hr := by
    by_cases hn : n' = n
    · subst hn
      rw [p.write_locks_self] at hl
      cases hl
    · rw [p.write_locks_ne hn] at hl
      exact h.cleared n' o' k r hl hrow hr
  undeleted n' o' k o'' r hl hl' := by
    by_cases hn : n' = n
    · subst hn
      rw [p.write_locks_self] at hl
      cases hl
    · rw [p.write_locks_ne hn] at hl
      exact h.undeleted n' o' k o'' r hl hl'

/-- **Deleting a row**, and clearing the references to it: nobody else holds a
row that refers to it, and every row that does is written anew, without a
reference. -/
theorem delete [DecidableEq K'] (h : s.Linked ref p) {n : K'}
    (hother : p.lockedByOther o n = false) {f : K → Option (Option V)}
    (hheld : ∀ k o' r, s.locks k = some (o', some r) → o' ≠ o → ref r ≠ some n)
    (hclear : ∀ k r, s.read o k = some r → ref r = some n → f k ≠ none)
    (hnew : ∀ k v, f k = some v → ∃ r r', s.read o k = some r ∧ ref r = some n ∧
      v = some r' ∧ ref r' = none) :
    (s.writeAll o f).Linked ref (p.write o n none) := by
  -- a row that is written anew refers to nothing
  have hlocks : ∀ k o' r n', (s.writeAll o f).locks k = some (o', some r) →
      ref r = some n' → f k = none ∧ s.locks k = some (o', some r) := by
    intro k o' r n' hl hr
    rcases s.writeAll_locks_eq_some hl with ⟨hf, -⟩ | hkept
    · obtain ⟨-, r', -, -, hv, hr'⟩ := hnew k _ hf
      cases hv
      rw [hr] at hr'
      cases hr'
    · exact hkept
  -- and a row that is left does not refer to the deleted one
  have hleft : ∀ k o' r, f k = none → s.locks k = some (o', some r) → ref r ≠ some n := by
    intro k o' r hf hl hr
    by_cases ho : o' = o
    · subst ho
      exact hclear k r (s.read_of_locked hl) hr hf
    · exact hheld k o' r hl ho hr
  have hread : ∀ o' n', n' ≠ n → (p.write o n none).read o' n' = p.read o' n' := by
    intro o' n' hn
    unfold RowStore.read
    rw [p.write_locks_ne hn, p.write_rows]
  refine ⟨h.committed, fun k o' r n' hl hr => ?_, fun n' o' k r hl hrow hr => ?_,
    fun n' o' k o'' r hl hl' hr => ?_⟩
  · obtain ⟨hf, hlock⟩ := hlocks k o' r n' hl hr
    have hn : n' ≠ n := by
      rintro rfl
      exact hleft k o' r hf hlock hr
    rw [hread o' n' hn]
    exact h.written k o' r n' hlock hr
  · by_cases hn : n' = n
    · subst hn
      rw [p.write_locks_self] at hl
      cases hl
      by_cases hf : f k = none
      · by_cases hsame : s.read o k = s.rows k
        · exact absurd hf (hclear k r (hsame.trans hrow) hr)
        · exact ⟨_, (s.writeAll_locks_of_none hf).trans (s.locked_of_read_ne hsame)⟩
      · obtain ⟨v, hv⟩ := Option.ne_none_iff_exists'.mp hf
        refine ⟨v, ?_⟩
        unfold writeAll
        dsimp only
        rw [hv]
    · rw [p.write_locks_ne hn] at hl
      obtain ⟨v, hv⟩ := h.cleared n' o' k r hl hrow hr
      cases hf : f k with
      | none => exact ⟨v, (s.writeAll_locks_of_none hf).trans hv⟩
      | some v' =>
        -- the row is written by the same transaction, or it would refer to `n` too
        by_cases ho : o' = o
        · subst ho
          refine ⟨v', ?_⟩
          unfold writeAll
          dsimp only
          rw [hf]
        · obtain ⟨r₀, -, hr₀, hn₀, -⟩ := hnew k v' hf
          rw [s.read_of_other hv ho] at hr₀
          obtain rfl := Option.some.inj (hr₀.symm.trans hrow)
          rw [hr] at hn₀
          exact absurd (Option.some.inj hn₀) hn
  · obtain ⟨hf, hlock⟩ := hlocks k o'' r n' hl' hr
    by_cases hn : n' = n
    · subst hn
      exact hleft k o'' r hf hlock hr
    · rw [p.write_locks_ne hn] at hl
      exact h.undeleted n' o' k o'' r hl hlock hr

end Linked

end RowStore

end Store
