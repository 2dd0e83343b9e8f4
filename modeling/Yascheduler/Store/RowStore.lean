import Mathlib.Logic.Function.Basic

/-!
# Rows under READ COMMITTED with row locks

A table maps keys to rows. A transaction that writes a row holds the row's
lock until it ends; its own reads see the new value, everybody else keeps
seeing the committed one. Since a lock stores both its holder and the value
the holder has written, two transactions can never hold uncommitted writes of
the same row – exclusion is a matter of types here, not an invariant.

Committing publishes the values of all locks of a holder and releases them;
rolling back releases them. Waiting for a lock is left to the caller, who
asks `lockedByOther` first.

## Why locks hold values

In the database a row has versions, and a transaction decides which of them it
sees. For the statements that are executed here two of them matter: the one that
was committed last, and the one that the holder of the lock has written. Keeping
the second one in the lock makes it disappear with the lock, whichever way the
transaction ends, and makes it invisible to everybody else without a rule about
visibility.

A row that is inserted and not committed yet is a lock on a key without a row,
and a row that is deleted is a lock whose value is absent.
-/

namespace Store

variable {K V O : Type}

/-- A table with its uncommitted writes. A lock and the value written under it are
kept together, since a transaction that has written a row holds its lock until it
ends. -/
structure RowStore (K V O : Type) where
  /-- the committed rows -/
  rows : K → Option V
  /-- the holder of each row lock, with the value it has written (`none` for
  a deleted row) -/
  locks : K → Option (O × Option V)

namespace RowStore

/-- A table without locks. -/
def ofRows (rows : K → Option V) : RowStore K V O where
  rows := rows
  locks _ := none

variable [DecidableEq O]

/-- The row as the transaction `o` sees it: its own write, or the committed row.
This is the isolation level read committed. -/
def read (s : RowStore K V O) (o : O) (k : K) : Option V :=
  match s.locks k with
  | some (o', v) => if o' = o then v else s.rows k
  | none => s.rows k

/-- Whether another transaction holds the lock of the row. -/
def lockedByOther (s : RowStore K V O) (o : O) (k : K) : Bool :=
  match s.locks k with
  | some (o', _) => o' != o
  | none => false

/-- Drop the locks of a transaction. -/
def unlock (s : RowStore K V O) (o : O) (k : K) : Option (O × Option V) :=
  match s.locks k with
  | some (o', v) => if o' = o then none else some (o', v)
  | none => none

/-- End the transaction and keep its writes. -/
def commit (s : RowStore K V O) (o : O) : RowStore K V O where
  rows := s.read o
  locks := s.unlock o

/-- End the transaction and forget its writes. -/
def rollback (s : RowStore K V O) (o : O) : RowStore K V O where
  rows := s.rows
  locks := s.unlock o

/-- Write rows: `f k` is the new value of row `k`, for the rows to be
written. -/
def writeAll (s : RowStore K V O) (o : O) (f : K → Option (Option V)) :
    RowStore K V O where
  rows := s.rows
  locks k := match f k with
    | some v => some (o, v)
    | none => s.locks k

/-- Write one row. -/
def write [DecidableEq K] (s : RowStore K V O) (o : O) (k : K) (v : Option V) :
    RowStore K V O where
  rows := s.rows
  locks := Function.update s.locks k (some (o, v))

section

variable (s : RowStore K V O) {o o' : O} {k : K} {v : Option V}

@[simp] theorem commit_rows : (s.commit o).rows k = s.read o k := rfl

@[simp] theorem rollback_rows : (s.rollback o).rows = s.rows := rfl

omit [DecidableEq O] in
@[simp] theorem write_rows [DecidableEq K] : (s.write o k v).rows = s.rows := rfl

omit [DecidableEq O] in
@[simp] theorem writeAll_rows (f : K → Option (Option V)) :
    (s.writeAll o f).rows = s.rows := rfl

omit [DecidableEq O] in
/-- A lock after a write of many rows was taken by it, or was there. -/
theorem writeAll_locks_eq_some {f : K → Option (Option V)} {w : O × Option V}
    (h : (s.writeAll o f).locks k = some w) :
    f k = some w.2 ∧ w.1 = o ∨ f k = none ∧ s.locks k = some w := by
  unfold writeAll at h
  dsimp only at h
  split at h
  · rename_i v hf
    cases h
    exact .inl ⟨hf, rfl⟩
  · rename_i hf
    exact .inr ⟨hf, h⟩

omit [DecidableEq O] in
theorem writeAll_locks_of_none {f : K → Option (Option V)} (h : f k = none) :
    (s.writeAll o f).locks k = s.locks k := by
  unfold writeAll
  dsimp only
  rw [h]

/-- A transaction sees what it has written, -/
theorem read_of_locked (h : s.locks k = some (o, v)) : s.read o k = v := by
  simp [read, h]

/-- and of rows that others have written what is committed. -/
theorem read_of_other (h : s.locks k = some (o', v)) (ho : o' ≠ o) :
    s.read o k = s.rows k := by
  simp [read, h, ho]

/-- Of any other row too. -/
theorem read_of_unlocked (h : s.locks k = none) : s.read o k = s.rows k := by
  simp [read, h]

/-- A row whose committed value is changed by a commit was locked by it. So nobody
else has written it meanwhile. -/
theorem locked_of_read_ne (h : s.read o k ≠ s.rows k) :
    s.locks k = some (o, s.read o k) := by
  cases hl : s.locks k with
  | none => exact absurd (s.read_of_unlocked hl) h
  | some ov =>
    obtain ⟨o', v⟩ := ov
    by_cases ho : o' = o
    · subst ho
      rw [s.read_of_locked hl]
    · exact absurd (s.read_of_other hl ho) h

/-- A transaction that holds no lock sees the committed rows. -/
theorem read_of_unused (h : ∀ k v, s.locks k ≠ some (o, v)) : s.read o = s.rows := by
  funext k
  by_contra hne
  exact h k _ (s.locked_of_read_ne hne)

/-- The locks of others stay. -/
theorem unlock_eq_some {w : O × Option V} :
    s.unlock o k = some w ↔ s.locks k = some w ∧ w.1 ≠ o := by
  unfold unlock
  split
  · rename_i o' v h
    by_cases ho : o' = o
    · simp only [ho, if_true, reduceCtorEq, false_iff, not_and, not_not, h,
        Option.some.injEq]
      rintro rfl
      rfl
    · simp only [ho, if_false, h, Option.some.injEq]
      exact ⟨fun e => ⟨e, e ▸ ho⟩, fun e => e.1⟩
  · rename_i h
    simp [h]

theorem unlock_of_unlocked (h : s.locks k = none) : s.unlock o k = none := by
  simp [unlock, h]

/-- So they do after a COMMIT, -/
@[simp] theorem commit_locks_eq_some {w : O × Option V} :
    (s.commit o).locks k = some w ↔ s.locks k = some w ∧ w.1 ≠ o :=
  s.unlock_eq_some

/-- and after a ROLLBACK. -/
@[simp] theorem rollback_locks_eq_some {w : O × Option V} :
    (s.rollback o).locks k = some w ↔ s.locks k = some w ∧ w.1 ≠ o :=
  s.unlock_eq_some

/-- A transaction that holds no lock leaves nothing behind. -/
theorem rollback_of_unused (h : ∀ k v, s.locks k ≠ some (o, v)) : s.rollback o = s := by
  have hlocks : s.unlock o = s.locks := by
    funext k
    refine Option.ext fun w => s.unlock_eq_some.trans ⟨fun hw => hw.1, fun hw => ⟨hw, ?_⟩⟩
    rintro rfl
    exact h k w.2 hw
  show (⟨s.rows, s.unlock o⟩ : RowStore K V O) = s
  rw [hlocks]

/-- A transaction that holds no lock commits nothing. -/
theorem commit_of_unused (h : ∀ k v, s.locks k ≠ some (o, v)) : s.commit o = s := by
  show (⟨s.read o, s.unlock o⟩ : RowStore K V O) = s
  rw [s.read_of_unused h]
  exact s.rollback_of_unused h

omit [DecidableEq O] in
/-- A table without locks is its rows. -/
theorem ofRows_rows (h : ∀ k, s.locks k = none) : .ofRows s.rows = s := by
  show (⟨s.rows, fun _ => none⟩ : RowStore K V O) = s
  rw [← funext h]

/-- If nobody else holds the lock, whoever holds it is the transaction itself. -/
theorem not_locked_of_not_lockedByOther (h : s.lockedByOther o k = false)
    {w : O × Option V} (hw : s.locks k = some w) : w.1 = o := by
  obtain ⟨o', v⟩ := w
  simpa [lockedByOther, hw] using h

omit [DecidableEq O] in
@[simp] theorem write_locks_self [DecidableEq K] :
    (s.write o k v).locks k = some (o, v) :=
  Function.update_self ..

omit [DecidableEq O] in
@[simp] theorem write_locks_ne [DecidableEq K] {k' : K} (h : k' ≠ k) :
    (s.write o k v).locks k' = s.locks k' :=
  Function.update_of_ne h ..

theorem read_write [DecidableEq K] :
    (s.write o k v).read o = Function.update (s.read o) k v := by
  funext k'
  by_cases h : k' = k
  · subst h
    rw [Function.update_self, read_of_locked _ (write_locks_self s)]
  · rw [Function.update_of_ne h]
    unfold read
    rw [write_locks_ne s h, write_rows]

/-- The only transaction that is open commits its only write. -/
theorem commit_write [DecidableEq K] (h : ∀ k, s.locks k = none) :
    (s.write o k v).commit o = .ofRows (Function.update s.rows k v) := by
  have hrows : (s.write o k v).read o = Function.update s.rows k v := by
    rw [read_write, s.read_of_unused (by simp [h])]
  have hlocks : (s.write o k v).unlock o = fun _ => none := by
    funext k'
    refine Option.eq_none_iff_forall_ne_some.mpr fun w hw => ?_
    obtain ⟨hl, hne⟩ := (unlock_eq_some _).mp hw
    by_cases hk : k' = k
    · subst hk
      rw [write_locks_self] at hl
      exact hne (by rw [← Option.some.inj hl])
    · rw [write_locks_ne _ hk, h k'] at hl
      cases hl
  show (⟨(s.write o k v).read o, (s.write o k v).unlock o⟩ : RowStore K V O) = _
  rw [hrows, hlocks]
  rfl

end

/-! ## Writes that move forward

A relation between the committed row and the one that is going to replace it
can only be kept if nobody else replaces the row in between. Nobody can,
because the writer holds the lock: the committed row is still the one it was
ahead of when its transaction ends. -/

/-- **Every uncommitted write is ahead of the committed row**: nobody has deleted a
row, or written one that does not follow the committed one. It is what makes a
COMMIT a step forward, whenever it comes. -/
def Ahead (R : V → V → Prop) (s : RowStore K V O) : Prop :=
  ∀ k o v, s.locks k = some (o, v) → ∃ r r', s.rows k = some r ∧ v = some r' ∧ R r r'

namespace Ahead

variable {R : V → V → Prop} {s : RowStore K V O} {o : O}

omit [DecidableEq O] in
/-- Nothing is written at first. -/
theorem of_unlocked (h : ∀ k, s.locks k = none) : s.Ahead R := by
  intro k o v hl
  rw [h k] at hl
  cases hl

/-- What a transaction sees is the committed row, or is ahead of it. -/
theorem read (h : s.Ahead R) {k : K} {r : V} (hr : s.rows k = some r) :
    ∃ r', s.read o k = some r' ∧ (r' = r ∨ R r r') := by
  by_cases hread : s.read o k = s.rows k
  · exact ⟨r, hread.trans hr, .inl rfl⟩
  · obtain ⟨r₀, r', hr₀, hr', hR⟩ := h k o _ (s.locked_of_read_ne hread)
    rw [hr] at hr₀
    cases hr₀
    exact ⟨r', hr', .inr hR⟩

/-- A transaction sees a row only where one is committed. -/
theorem of_read (h : s.Ahead R) {k : K} {r' : V} (hr' : s.read o k = some r') :
    ∃ r, s.rows k = some r ∧ (r' = r ∨ R r r') := by
  by_cases hread : s.read o k = s.rows k
  · exact ⟨r', hread ▸ hr', .inl rfl⟩
  · obtain ⟨r, r₀, hr, hr₀, hR⟩ := h k o _ (s.locked_of_read_ne hread)
    rw [hr'] at hr₀
    cases hr₀
    exact ⟨r, hr, .inr hR⟩

omit [DecidableEq O] in
theorem unlock (h : s.Ahead R) {s' : RowStore K V O} (hrows : s'.rows = s.rows)
    (hlocks : ∀ k l, s'.locks k = some l → s.locks k = some l) : s'.Ahead R := by
  intro k o v hl
  rw [hrows]
  exact h k o v (hlocks k _ hl)

/-- A ROLLBACK only gives up writes. -/
theorem rollback (h : s.Ahead R) : (s.rollback o).Ahead R :=
  h.unlock rfl fun _ _ hl => (s.unlock_eq_some.mp hl).1

/-- After a COMMIT the row is the one that was ahead, and nobody else has written
it. -/
theorem commit (h : s.Ahead R) : (s.commit o).Ahead R := by
  intro k o' v hl
  obtain ⟨hlock, ho⟩ := s.commit_locks_eq_some.mp hl
  rw [s.commit_rows, s.read_of_other hlock ho]
  exact h k o' v hlock

omit [DecidableEq O] in
/-- New writes that are ahead of the committed rows. -/
theorem writeAll (h : s.Ahead R) {f : K → Option (Option V)}
    (hf : ∀ k v, f k = some v → ∃ r r', s.rows k = some r ∧ v = some r' ∧ R r r') :
    (s.writeAll o f).Ahead R := by
  intro k o' v hl
  rcases s.writeAll_locks_eq_some hl with ⟨hv, -⟩ | ⟨-, hl⟩
  · exact hf k v hv
  · exact h k o' v hl

omit [DecidableEq O] in
/-- A single write that is ahead. -/
theorem write [DecidableEq K] (h : s.Ahead R) {k : K} {r r' : V}
    (hr : s.rows k = some r) (hR : R r r') : (s.write o k (some r')).Ahead R := by
  intro k' o' v hl
  by_cases hk : k' = k
  · subst hk
    rw [s.write_locks_self] at hl
    cases hl
    exact ⟨r, r', hr, rfl, hR⟩
  · rw [s.write_locks_ne hk] at hl
    exact h k' o' v hl

end Ahead

/-! ## What every row satisfies

A constraint of single rows is easier than one between rows or over time.
Whatever a transaction does to the locks, the values are those that somebody
has written, so the constraint has to be checked where a row is written and
nowhere else. -/

/-- **Every row satisfies `P`**, whether it is committed or not. So a property of
rows is kept by looking at writes only. -/
structure All (P : K → V → Prop) (s : RowStore K V O) : Prop where
  rows : ∀ k r, s.rows k = some r → P k r
  written : ∀ k o r, s.locks k = some (o, some r) → P k r

namespace All

variable {P : K → V → Prop} {s : RowStore K V O} {o : O} {k : K}

omit [DecidableEq O] in
/-- It is enough to look at the rows at first. -/
theorem of_unlocked (hrows : ∀ k r, s.rows k = some r → P k r)
    (h : ∀ k, s.locks k = none) : s.All P where
  rows := hrows
  written k o r hl := by
    rw [h k] at hl
    cases hl

/-- Every row that a transaction sees. -/
theorem read (h : s.All P) {r : V} (hr : s.read o k = some r) : P k r := by
  by_cases hsame : s.read o k = s.rows k
  · exact h.rows k r (hsame ▸ hr)
  · exact h.written k o r (hr ▸ s.locked_of_read_ne hsame)

/-- A ROLLBACK leaves fewer values, -/
theorem rollback (h : s.All P) : (s.rollback o).All P where
  rows := h.rows
  written k' o' r hl := h.written k' o' r (s.unlock_eq_some.mp hl).1

/-- and so does a COMMIT. -/
theorem commit (h : s.All P) : (s.commit o).All P where
  rows _ _ hr := h.read hr
  written k' o' r hl := h.written k' o' r (s.unlock_eq_some.mp hl).1

omit [DecidableEq O] in
/-- Rows that are written have to be looked at. -/
theorem writeAll (h : s.All P) {f : K → Option (Option V)}
    (hf : ∀ k r, f k = some (some r) → P k r) : (s.writeAll o f).All P where
  rows := h.rows
  written k' o' r hl := by
    rcases s.writeAll_locks_eq_some hl with ⟨hv, -⟩ | ⟨-, hl⟩
    · exact hf k' r hv
    · exact h.written k' o' r hl

omit [DecidableEq O] in
/-- One row too. -/
theorem write [DecidableEq K] (h : s.All P) {v : Option V} (hv : ∀ r, v = some r → P k r) :
    (s.write o k v).All P where
  rows := h.rows
  written k' o' r hl := by
    by_cases hk : k' = k
    · subst hk
      rw [s.write_locks_self] at hl
      cases hl
      exact hv r rfl
    · rw [s.write_locks_ne hk] at hl
      exact h.written k' o' r hl

end All

end RowStore

end Store
