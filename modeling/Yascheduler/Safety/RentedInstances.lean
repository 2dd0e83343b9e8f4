import Yascheduler.Async.Trace
import Yascheduler.Infra.Providers.VastAI

/-!
# What is rented

An instance costs money from the moment it is rented, and the request for it is
not idempotent. So it matters what a creation asks for, and how often: one
offer at most, among the cheapest of those that were found and within the price;
and what becomes of the instance if the creation fails.

A creation destroys nothing that is not its own: the instance it was answered
with, or, without an answer, an instance under the label of its request.

## Which label it was

The label has random letters in it, and whether two requests have the same ones
is not for the code to say. But an instance is found by its label, so it matters
that the label of a request is made of the letters drawn for *this* request. The
trace shows them: they are the answer right before it.
-/

namespace Yascheduler.Http.VastAI

open Async

/-! ## What is seen of a creation

An instance is seen in three places: in the request that rents it, in the
answer with its id, and in a listing by its label. A request without an answer
may have rented one, so it counts as a rent. -/

/-- An instance is asked for. It may have been rented even if there is no answer. -/
def Rents (a : Answer sig) : Prop := ∃ askId params r, a = .op (.createInstance askId params) r

/-- An instance is to be destroyed, whatever becomes of it. -/
def Destroys (id : Int) (a : Answer sig) : Prop := ∃ r, a = .op (.destroyInstance id) r

/-- Nothing is rented or destroyed. -/
structure Quiet (a : Answer sig) : Prop where
  rents : ¬ Rents a
  destroys : ∀ id, ¬ Destroys id a

/-- An instance was found under the label. Labels are the only trace of an instance
whose id was never answered. -/
def Owned (label : String) (tr : Trace sig) (id : Int) : Prop :=
  ∃ q, .op (.firstInstance label) (.ok (some q)) ∈ tr ∧ id = truncate q

section

variable {label : String} {tr tr' : Trace sig} {id : Int}

/-- It stays found. -/
theorem Owned.later (h : Owned label tr id) : Owned label (tr' ++ tr) id :=
  let ⟨q, hq, hid⟩ := h
  ⟨q, List.mem_append_right tr' hq, hid⟩

end

/-- A call neither rents nor destroys. -/
theorem quiet_call {c : Call} {r : c.Ans} : Quiet (.call c r) where
  rents := by rintro ⟨_, _, _, ⟨⟩⟩
  destroys := by rintro _ ⟨_, ⟨⟩⟩

theorem quiet_op {o : Op} {r : Except Exc o.Res} (hrent : ∀ i p, o ≠ .createInstance i p)
    (hdestroy : ∀ i, o ≠ .destroyInstance i) : Quiet (.op o r) where
  rents := by
    rintro ⟨i, p, r', h⟩
    cases h
    exact hrent i p rfl
  destroys := by
    rintro i ⟨r', h⟩
    cases h
    exact hdestroy i rfl

/-- Nor does an operation that is not one of the two. -/
theorem sees_quiet {o : Op} (hrent : ∀ i p, o ≠ .createInstance i p)
    (hdestroy : ∀ i, o ≠ .destroyInstance i) : Sees Quiet (perform o) :=
  sees_op fun _ => quiet_op hrent hdestroy

theorem sees_sleep (seconds : Nat) : Sees Quiet (perform (.sleep seconds)) :=
  sees_quiet (by rintro _ _ ⟨⟩) (by rintro _ ⟨⟩)

/-! ## The offer

The offers are sorted by their price and one of the first five is drawn.
Whatever the draw, at most four offers are cheaper. The ceiling is compared
after the draw, so a creation may fail although a cheaper offer would have been
within it. -/

/-- **The offer is a good one**: it was found, it is within the price, and at most
four are cheaper. One of the five cheapest is drawn, so as not to fall into the same
broken provider. -/
structure Chosen (offers : List Offer) (maxPricePerHr : Rat) (offer : Offer) : Prop where
  found : offer ∈ offers
  affordable : offer.dphTotal ≤ maxPricePerHr
  cheap : (offers.countP fun o => o.dphTotal < offer.dphTotal) ≤ 4

/-- In a sorted list, what is smaller comes before. -/
theorem countP_le_of_sorted {offers : List Offer}
    (h : offers.Pairwise fun a b => a.dphTotal ≤ b.dphTotal) {i : Nat} (hi : i < offers.length) :
    (offers.countP fun o => o.dphTotal < offers[i].dphTotal) ≤ i := by
  have hlater : (offers.drop i).countP (fun o => o.dphTotal < offers[i].dphTotal) = 0 := by
    rw [List.countP_eq_zero]
    intro o ho
    rw [List.drop_eq_getElem_cons hi] at ho
    have hle : offers[i].dphTotal ≤ o.dphTotal := by
      rcases List.mem_cons.mp ho with rfl | ho
      · exact Rat.le_refl
      · have hrest := h.sublist (List.drop_sublist i offers)
        rw [List.drop_eq_getElem_cons hi, List.pairwise_cons] at hrest
        exact hrest.1 o ho
    simpa using Rat.not_lt.mpr hle
  have hearlier := List.countP_le_length (p := fun o => o.dphTotal < offers[i].dphTotal)
    (l := offers.take i)
  calc (offers.countP fun o => o.dphTotal < offers[i].dphTotal)
      = (offers.take i ++ offers.drop i).countP (fun o => o.dphTotal < offers[i].dphTotal) := by
        rw [List.take_append_drop]
    _ ≤ i := by
        rw [List.countP_append, hlater]
        exact hearlier.trans (List.length_take_le i offers)

/-- The offer that is selected is a good one. -/
theorem returns_selectCheapestOffer (offers : List Offer) (maxPricePerHr : Rat) :
    Returns (Chosen offers maxPricePerHr) (selectCheapestOffer offers maxPricePerHr) := by
  have hperm := List.mergeSort_perm offers fun a b => decide (a.dphTotal ≤ b.dphTotal)
  have hsorted : (offers.mergeSort fun a b => decide (a.dphTotal ≤ b.dphTotal)).Pairwise
      fun a b => a.dphTotal ≤ b.dphTotal := by
    refine (List.pairwise_mergeSort ?_ ?_ offers).imp fun h => of_decide_eq_true h
    · intro a b c hab hbc
      exact decide_eq_true (Rat.le_trans (of_decide_eq_true hab) (of_decide_eq_true hbc))
    · intro a b
      rcases Rat.le_total (a := a.dphTotal) (b := b.dphTotal) with h | h <;> simp [h]
  unfold selectCheapestOffer
  generalize (offers.mergeSort fun a b => decide (a.dphTotal ≤ b.dphTotal)) = sorted at *
  split
  · trivial
  · rename_i first others htake
    refine returns_then fun i => ?_
    dsimp only
    split
    · trivial
    · rename_i hprice
      have hi : i.val < (sorted.take 5).length := by
        rw [htake]
        exact i.isLt
      have hlen : i.val < sorted.length := hi.trans_le (List.length_take_le' ..)
      have hfive : i.val ≤ 4 := Nat.le_of_lt_succ (hi.trans_le (List.length_take_le 5 sorted))
      have hget : (first :: others).get i = sorted[i.val] := by
        rw [List.get_eq_getElem]
        simp only [← htake, List.getElem_take]
      rw [hget] at hprice ⊢
      exact ⟨hperm.mem_iff.mp (List.getElem_mem hlen), Rat.not_lt.mp hprice,
        ((hperm.countP_eq _).symm.trans_le (countP_le_of_sorted hsorted hlen)).trans hfive⟩

theorem sees_selectCheapestOffer (offers : List Offer) (maxPricePerHr : Rat) :
    Sees Quiet (selectCheapestOffer offers maxPricePerHr) := by
  unfold selectCheapestOffer
  split
  · exact sees_throw _
  · refine sees_bind (sees_sync fun _ => quiet_call) fun i => ?_
    dsimp only
    split
    · exact sees_throw _
    · exact sees_ret _

theorem sees_ensureSshKey (publicKey : String) : Sees Quiet (ensureSshKey publicKey) := by
  refine sees_bind (sees_quiet (by rintro _ _ ⟨⟩) (by rintro _ ⟨⟩)) fun keys => ?_
  split
  · exact sees_ret _
  · exact sees_quiet (by rintro _ _ ⟨⟩) (by rintro _ ⟨⟩)

/-! ## What is destroyed

A deletion is given an id, and destroys nothing else. Where the id comes from
is the question: from the answer of the request, or from a listing by the
label, and in the second case the label is the only reason to believe that the
instance is the right one. -/

/-- Nothing is rented, and only this instance is destroyed. -/
structure Only (id : Int) (a : Answer sig) : Prop where
  rents : ¬ Rents a
  destroys : ∀ i, Destroys i a → i = id

theorem Quiet.only {a : Answer sig} (h : Quiet a) (id : Int) : Only id a where
  rents := h.rents
  destroys i hi := absurd hi (h.destroys i)

theorem only_destroy (id : Int) (r : Except Exc Unit) :
    Only id (.op (.destroyInstance id) r) where
  rents := by rintro ⟨_, _, _, ⟨⟩⟩
  destroys := by rintro _ ⟨_, ⟨⟩⟩; rfl

/-- A deletion destroys its own instance, as often as it tries. -/
theorem sees_deleteInstance (id : Int) (attempts : List Nat) :
    Sees (Only id) (deleteInstance id attempts) := by
  induction attempts with
  | nil => exact sees_ret _
  | cons attempt attempts ih =>
    refine sees_attempt_bind (sees_op (only_destroy id)) fun r => ?_
    cases r with
    | ok u => exact sees_ret _
    | error err =>
      dsimp only
      split
      · exact sees_ret _
      · split
        · exact sees_bind ((sees_sleep _).mono fun _ h => h.only id) fun _ => ih
        · split
          · exact sees_ret _
          · exact sees_throw _

/-- A deletion asks for it at once. -/
theorem destroys_deleteInstance {id : Int} {attempt : Nat} {attempts : List Nat}
    {tr : Trace sig} {r : Except Exc Bool}
    (h : Finishes (deleteInstance id (attempt :: attempts)) tr r) : ∃ a ∈ tr, Destroys id a := by
  unfold deleteInstance at h
  obtain ⟨r₀, tr₁, tr₂, rfl, h₁, -⟩ := finishes_attempt_bind.1 h
  obtain rfl := finishes_op.1 h₁
  exact ⟨_, List.mem_cons_self, r₀, rfl⟩

/-- Nothing is rented, and what is destroyed was found under the label. -/
structure Tidy (label : String) (tr : Trace sig) : Prop where
  rents : ∀ a ∈ tr, ¬ Rents a
  destroys : ∀ a ∈ tr, ∀ id, Destroys id a → Owned label tr id

namespace Tidy

variable {label : String} {tr tr' : Trace sig}

theorem of_quiet (h : ∀ a ∈ tr, Quiet a) : Tidy label tr where
  rents a ha := (h a ha).rents
  destroys a ha id hid := absurd hid ((h a ha).destroys id)

theorem append (h : Tidy label tr) (h' : Tidy label tr') : Tidy label (tr ++ tr') where
  rents := List.forall_mem_append.mpr ⟨h.rents, h'.rents⟩
  destroys := by
    refine List.forall_mem_append.mpr ⟨fun a ha id hid => ?_, fun a ha id hid => ?_⟩
    · obtain ⟨q, hq, hid⟩ := h.destroys a ha id hid
      exact ⟨q, List.mem_append_left tr' hq, hid⟩
    · exact (h'.destroys a ha id hid).later

/-- An instance that was found is destroyed. -/
theorem of_found {q : Rat} (h : ∀ a ∈ tr, Only (truncate q) a) :
    Tidy label (.op (.firstInstance label) (.ok (some q)) :: tr) := by
  have hfound : Quiet (.op (.firstInstance label) (.ok (some q))) :=
    quiet_op (by rintro _ _ ⟨⟩) (by rintro _ ⟨⟩)
  refine ⟨List.forall_mem_cons.mpr ⟨hfound.rents, fun a ha => (h a ha).rents⟩, ?_⟩
  refine List.forall_mem_cons.mpr ⟨fun id hid => absurd hid (hfound.destroys id), ?_⟩
  exact fun a ha id hid => ⟨q, List.mem_cons_self, (h a ha).destroys id hid⟩

end Tidy

/-- **A reconciliation is tidy.** It knows nothing but the label, so what it destroys
can only have been found under it. -/
theorem tidy_reconcileOrphanByLabel {label : String} {attempts : List Nat} {tr : Trace sig}
    {r : Except Exc Unit} (h : Finishes (reconcileOrphanByLabel label attempts) tr r) :
    Tidy label tr := by
  have hsearch : ∀ r, Quiet (.op (.firstInstance label) r) := fun r =>
    quiet_op (by rintro _ _ ⟨⟩) (by rintro _ ⟨⟩)
  induction attempts generalizing tr with
  | nil =>
    obtain ⟨rfl, -⟩ := h
    exact .of_quiet (by simp)
  | cons attempt attempts ih =>
    unfold reconcileOrphanByLabel at h
    obtain ⟨r₀, tr₁, tr₂, rfl, h₁, h₂⟩ := finishes_attempt_bind.1 h
    obtain rfl := finishes_op.1 h₁
    have hfirst : Tidy label [.op (.firstInstance label) r₀] :=
      .of_quiet (List.forall_mem_singleton.mpr (hsearch r₀))
    -- the waiting before the next attempt, if there is one
    have hgo : ∀ {tr}, Finishes (Co.bind (perform (.sleep reconcileInterval)) fun _ =>
        reconcileOrphanByLabel label attempts) tr r → Tidy label tr := by
      intro tr hends
      rcases finishes_bind.1 hends with ⟨e, -, hs⟩ | ⟨u, tr₁, tr₂, rfl, hs, hnext⟩
      · exact .of_quiet (sees_sleep _ _ _ hs)
      · exact (Tidy.of_quiet (sees_sleep _ _ _ hs)).append (ih hnext)
    cases r₀ with
    | error err =>
      dsimp only at h₂
      split at h₂
      · obtain ⟨rfl, -⟩ := h₂
        exact hfirst
      · split at h₂
        · exact hfirst.append (hgo h₂)
        · obtain ⟨rfl, -⟩ := h₂
          exact hfirst
    | ok found =>
      cases found with
      | none =>
        dsimp only at h₂
        split at h₂
        · exact hfirst.append (hgo h₂)
        · exact hfirst.append (ih h₂)
      | some q =>
        refine Tidy.of_found fun a ha => ?_
        have hsees : Sees (Only (truncate q)) (Co.tryCatch (do
            let _ ← deleteInstance (truncate q) (List.range' 1 deleteAttempts)) fun err =>
            if err.isException then (return () : Script Unit) else raise err) := by
          refine sees_tryCatch (sees_bind (sees_deleteInstance _ _) fun _ => sees_ret _)
            fun err => ?_
          split
          · exact sees_ret _
          · exact sees_throw _
        exact hsees _ _ h₂ a ha

/-! ## Waiting -/

theorem sees_field (inst : Value) (key : String) : Sees Quiet (field inst key) := by
  unfold field
  split
  · exact sees_ret _
  · exact sees_throw _

/-- Waiting for an instance neither rents nor destroys. -/
theorem sees_waitUntilReady (id : Int) (deadline fuel : Nat) :
    Sees Quiet (waitUntilReady id deadline fuel) := by
  induction fuel with
  | zero =>
    exact sees_bind (sees_quiet (by rintro _ _ ⟨⟩) (by rintro _ ⟨⟩)) fun e => e.elim
  | succ fuel ih =>
    have hagain : Sees Quiet (Co.bind (perform (.sleep pollInterval)) fun _ =>
        waitUntilReady id deadline fuel) := sees_bind (sees_sleep _) fun _ => ih
    refine sees_bind (sees_sync fun _ => quiet_call) fun now => ?_
    split
    · exact sees_throw _
    · refine sees_attempt_bind (sees_quiet (by rintro _ _ ⟨⟩) (by rintro _ ⟨⟩)) fun r => ?_
      cases r with
      | error err =>
        dsimp only
        split
        · exact hagain
        · exact sees_throw _
      | ok inst =>
        cases inst with
        | none => exact sees_throw _
        | some inst =>
          refine sees_bind (sees_field _ _) fun status => ?_
          cases status with
          | str status =>
            dsimp only
            split
            · refine sees_bind (sees_field _ _) fun sshHost => ?_
              split
              · exact hagain
              · refine sees_bind (sees_field _ _) fun sshPort => ?_
                cases sshPort <;> first | exact hagain | exact sees_ret _
            · split
              · exact sees_throw _
              · exact hagain
          | _ => exact hagain

/-! ## A creation

A creation is a search, a request and a wait, and each may fail. `Settles` says
what follows a request, and `Spends` that there is one at most. Both are about
the trace from a point on, so they are put together from the end of the
creation to its beginning. -/

/-- **What becomes of a request**: an instance that was not answered is looked for
under its label; one that was answered is kept, or asked to be destroyed – unless
only the session could not be closed. In that case the creation fails although the
instance is ready. -/
inductive Settles (label : String) (after : Trace sig) :
    Except Exc Int → Except Exc Int → Prop
  | refused {e e' : Exc} (h : Tidy label after) : Settles label after (.error e) (.error e')
  | kept {id : Int} (h : ∀ a ∈ after, Quiet a) : Settles label after (.ok id) (.ok id)
  | closed {id : Int} {e : Exc} (h : ∀ a ∈ after, Quiet a)
      (hclose : .op .close (.error e) ∈ after) : Settles label after (.ok id) (.error e)
  | destroyed {id : Int} {e : Exc} (h : ∀ a ∈ after, Only id a)
      (hasked : ∃ a ∈ after, Destroys id a) : Settles label after (.ok id) (.error e)

/-- The label of a request. -/
def labelOf (cfg : Config) (letters : String) : String := cfg.label ++ "-" ++ letters

/-- **What a creation spends.** It asks for nothing and fails, or it asks once, for
an offer that was well chosen, and under a label with letters that were drawn
for this request. -/
inductive Spends (cfg : Config) (cloudConfig : Option Azure.CloudInitConfig)
    (tr : Trace sig) (o : Except Exc Int) : Prop
  | nothing {e : Exc} (h : ∀ a ∈ tr, Quiet a) (he : o = .error e)
  | once {before after : Trace sig} {offers : List Offer} {offer : Offer} {letters : String}
      {res : Except Exc Int}
      (htr : tr = before ++ .call .rndLetters letters :: .op (.createInstance offer.id
        (instanceParams cfg cloudConfig (labelOf cfg letters))) res :: after)
      (hbefore : ∀ a ∈ before, Quiet a)
      (hsearch : .op (.searchOffers (search cfg)) (.ok offers) ∈ before)
      (hoffer : Chosen offers cfg.maxPricePerHr offer)
      (hsettles : Settles (labelOf cfg letters) after res o)

theorem sees_publicKey : Sees Quiet (Co.bind (call .publicKey) fun a => Co.ofExcept (S := sig) a) :=
  sees_bind (sees_sync fun _ => quiet_call) fun _ => sees_ofExcept _

section

variable {cfg : Config} {cloudConfig : Option Azure.CloudInitConfig} {tr tr' : Trace sig}
  {o : Except Exc Int}

/-- Nothing was spent before. -/
theorem Spends.prepend (h : Spends cfg cloudConfig tr o) (hquiet : ∀ a ∈ tr', Quiet a) :
    Spends cfg cloudConfig (tr' ++ tr) o := by
  cases h with
  | nothing h he => exact .nothing (List.forall_mem_append.mpr ⟨hquiet, h⟩) he
  | once htr hbefore hsearch hoffer hsettles =>
    refine .once (by rw [htr, List.append_assoc]) (List.forall_mem_append.mpr ⟨hquiet, hbefore⟩)
      (List.mem_append_right _ hsearch) hoffer hsettles

/-- A session that could not be closed has failed. -/
theorem Settles.close {label : String} {after : Trace sig} {res : Except Exc Int}
    (h : Settles label after res o) (rx : Except Exc Unit) :
    Settles label (after ++ [.op .close rx]) res (rx.bind fun _ => o) := by
  have hquiet : ∀ a ∈ [(.op .close rx : Answer sig)], Quiet a :=
    List.forall_mem_singleton.mpr (quiet_op (by rintro _ _ ⟨⟩) (by rintro _ ⟨⟩))
  have hlast : (.op .close rx : Answer sig) ∈ after ++ [.op .close rx] :=
    List.mem_append_right _ List.mem_cons_self
  cases h with
  | refused h => cases rx <;> exact .refused (h.append (.of_quiet hquiet))
  | kept h =>
    cases rx with
    | error e => exact .closed (List.forall_mem_append.mpr ⟨h, hquiet⟩) hlast
    | ok u => exact .kept (List.forall_mem_append.mpr ⟨h, hquiet⟩)
  | closed h hclose =>
    cases rx with
    | error e => exact .closed (List.forall_mem_append.mpr ⟨h, hquiet⟩) hlast
    | ok u =>
      exact .closed (List.forall_mem_append.mpr ⟨h, hquiet⟩) (List.mem_append_left _ hclose)
  | destroyed h hasked =>
    obtain ⟨a, ha, hid⟩ := hasked
    have honly := List.forall_mem_append.mpr ⟨h, fun a ha => (hquiet a ha).only _⟩
    cases rx <;> exact .destroyed honly ⟨a, List.mem_append_left _ ha, hid⟩

/-- Closing the session spends nothing. -/
theorem Spends.close (h : Spends cfg cloudConfig tr o) (rx : Except Exc Unit) :
    Spends cfg cloudConfig (tr ++ [.op .close rx]) (rx.bind fun _ => o) := by
  cases h with
  | nothing h he =>
    have hquiet := List.forall_mem_append.mpr ⟨h, List.forall_mem_singleton.mpr
      (quiet_op (o := .close) (r := rx) (by rintro _ _ ⟨⟩) (by rintro _ ⟨⟩))⟩
    cases rx with
    | error e => exact .nothing hquiet rfl
    | ok u => exact .nothing hquiet he
  | once htr hbefore hsearch hoffer hsettles =>
    refine .once ?_ hbefore hsearch hoffer (hsettles.close rx)
    rw [htr, List.append_assoc, List.cons_append, List.cons_append]

/-- A request that was not answered. -/
theorem finishes_requestInstance {offer : Offer} {label : String} {r : Except Exc Int}
    (h : Finishes (requestInstance cfg cloudConfig offer label) tr r) :
    ∃ res after, tr = .op (.createInstance offer.id
        (instanceParams cfg cloudConfig label)) res :: after ∧
      ((∃ id, res = .ok id ∧ r = .ok id ∧ after = []) ∨
        ∃ e e', res = .error e ∧ r = .error e' ∧ Tidy label after) := by
  rcases finishes_tryCatch.1 h with ⟨id, rfl, hcreate⟩ | ⟨e, tr₁, tr₂, rfl, hcreate, hhandler⟩
  · obtain rfl := finishes_op.1 hcreate
    exact ⟨.ok id, [], rfl, .inl ⟨id, rfl, rfl, rfl⟩⟩
  · obtain rfl := finishes_op.1 hcreate
    refine ⟨.error e, tr₂, rfl, .inr ?_⟩
    rcases finishes_bind.1 hhandler with ⟨e', rfl, hrec⟩ | ⟨_, tr₃, tr₄, rfl, hrec, rfl, rfl⟩
    · exact ⟨e, e', rfl, rfl, tidy_reconcileOrphanByLabel hrec⟩
    · rw [List.append_nil]
      exact ⟨e, e, rfl, rfl, tidy_reconcileOrphanByLabel hrec⟩

/-- Reading the address spends nothing. -/
theorem sees_addressOf (second fuel : Nat) (id : Int) :
    Sees Quiet (addressOf cfg second fuel id) :=
  sees_bind (sees_sync fun _ => quiet_call) fun _ =>
    sees_bind (sees_waitUntilReady _ _ _) fun _ => sees_bind (sees_field _ _) fun _ =>
      sees_bind (sees_field _ _) fun _ => sees_ret _

/-- It is the address of the instance that was asked about. -/
theorem returns_addressOf (second fuel : Nat) (id : Int) :
    Returns (fun x => x.1 = id) (addressOf cfg second fuel id) :=
  returns_then fun _ => returns_then fun _ => returns_then fun _ => returns_then fun _ => rfl

/-- **From the request on.** There is one request, and what follows settles it. The
instance that is returned is the one that was rented. -/
theorem finishes_rent {offer : Offer} {label : String} {second fuel : Nat}
    {r : Except Exc (Int × Value × Value)}
    (h : Finishes (rent cfg cloudConfig second fuel offer label) tr r) :
    ∃ res after, tr = .op (.createInstance offer.id
        (instanceParams cfg cloudConfig label)) res :: after ∧
      Settles label after res (r.map fun x => x.1) := by
  rcases finishes_bind.1 h with ⟨e, rfl, hrequest⟩ | ⟨id, tr₁, tr₂, rfl, hrequest, hwait⟩
  · obtain ⟨res, after, rfl, ⟨_, -, he, -⟩ | ⟨_, _, rfl, -, htidy⟩⟩ :=
      finishes_requestInstance hrequest
    · cases he
    · exact ⟨_, after, rfl, .refused htidy⟩
  · obtain ⟨res, after, rfl, ⟨_, rfl, he, rfl⟩ | ⟨_, _, -, he, -⟩⟩ :=
      finishes_requestInstance hrequest
    · cases he
      refine ⟨.ok id, tr₂, rfl, ?_⟩
      rcases finishes_tryCatch.1 hwait with ⟨x, rfl, hends⟩ | ⟨e, tr₃, tr₄, rfl, hends, hhandler⟩
      · have hid : x.1 = id := (returns_addressOf second fuel id).finishes hends
        show Settles _ _ _ (.ok x.1)
        rw [hid]
        exact .kept (sees_addressOf _ _ _ _ _ hends)
      · have hdelete : (∀ a ∈ tr₄, Only id a) ∧ (∃ a ∈ tr₄, Destroys id a) ∧ ∃ e, r = .error e := by
          have hrange : List.range' 1 deleteAttempts = [1, 2, 3] := rfl
          rw [hrange] at hhandler
          rcases finishes_bind.1 hhandler with ⟨e, rfl, hdel⟩ | ⟨_, tr₅, tr₆, rfl, hdel, rfl, rfl⟩
          · exact ⟨sees_deleteInstance _ _ _ _ hdel, destroys_deleteInstance hdel, e, rfl⟩
          · rw [List.append_nil]
            exact ⟨sees_deleteInstance _ _ _ _ hdel, destroys_deleteInstance hdel, _, rfl⟩
        obtain ⟨honly, ⟨a, ha, hid⟩, e, rfl⟩ := hdelete
        refine .destroyed (List.forall_mem_append.mpr ⟨fun a ha => ?_, honly⟩)
          ⟨a, List.mem_append_right _ ha, hid⟩
        exact (sees_addressOf _ _ _ _ _ hends a ha).only id
    · cases he

/-- **From the search on.** If no offer is good enough nothing is asked for: the
price is compared before the request. -/
theorem spends_searchAndRent {second fuel : Nat} {r : Except Exc (Int × Value × Value)}
    (h : Finishes (searchAndRent cfg cloudConfig second fuel) tr r) :
    Spends cfg cloudConfig tr (r.map fun x => x.1) := by
  have hsearch : Sees Quiet (perform (.searchOffers (search cfg))) :=
    sees_quiet (by rintro _ _ ⟨⟩) (by rintro _ ⟨⟩)
  rcases finishes_bind.1 h with ⟨e, rfl, hfound⟩ | ⟨offers, tr₁, tr₂, rfl, hfound, hselect⟩
  · exact .nothing (hsearch _ _ hfound) rfl
  · rcases finishes_bind.1 hselect with ⟨e, rfl, hoffer⟩ | ⟨offer, tr₃, tr₄, rfl, hoffer, hcall⟩
    · refine .nothing (List.forall_mem_append.mpr ⟨hsearch _ _ hfound, ?_⟩) rfl
      exact sees_selectCheapestOffer _ _ _ _ hoffer
    · obtain ⟨letters, tr₅, rfl, hrent⟩ := hcall
      obtain ⟨res, after, rfl, hsettles⟩ := finishes_rent hrent
      have hbefore : ∀ a ∈ tr₁ ++ tr₃, Quiet a :=
        List.forall_mem_append.mpr ⟨hsearch _ _ hfound, sees_selectCheapestOffer _ _ _ _ hoffer⟩
      refine .once (by simp [labelOf]) hbefore (List.mem_append_left _ ?_)
        ((returns_selectCheapestOffer _ _).finishes hoffer) hsettles
      obtain rfl := finishes_op.1 hfound
      exact List.mem_cons_self

end

namespace RentedInstances

def offer : Offer where
  id := 7
  dphTotal := 1

/-- An instance that is running. -/
def instance42 : Value :=
  .dict [("actual_status", .str "running"), ("ssh_host", .str "10.0.0.1"), ("ssh_port", .int 22)]

/-- The only offer is rented, and its instance is running at once. -/
def kept : Trace sig :=
  [.call .publicKey (.ok "ssh-ed25519 AAAA"), .op .getSshKeys (.ok ["ssh-ed25519 AAAA"]),
    .op (.searchOffers (search {})) (.ok [offer]), .call (.choice 0) 0, .call .rndLetters "x",
    .op (.createInstance 7 (instanceParams {} none "yascheduler-x")) (.ok 42), .call .time 0,
    .call .time 0, .op (.showInstance 42) (.ok (some instance42)), .op .close (.ok ())]

theorem selectCheapestOffer_one :
    selectCheapestOffer [offer] (3 / 2) = Co.bind (call (.choice 0)) fun _ => .ret offer := by
  have hprice : ¬ (3 / 2 : Rat) < offer.dphTotal := by decide +kernel
  unfold selectCheapestOffer
  rw [List.mergeSort_singleton]
  simp [List.take, hprice]

theorem finishes_kept : Finishes (createNode {} none 1 5) kept
    (.ok (created {} 42 (.str "10.0.0.1") (.int 22))) := by
  refine ⟨_, _, rfl, _, _, rfl, _, _, rfl, ?_⟩
  show Finishes (Co.bind (Co.bind (Co.attempt (Co.bind
    (selectCheapestOffer [offer] (3 / 2)) _)) _) _) _ _
  rw [selectCheapestOffer_one]
  exact ⟨_, _, rfl, _, _, rfl, _, _, rfl, _, _, rfl, _, _, rfl, _, _, rfl, _, _, rfl, rfl, rfl⟩

end RentedInstances

end Yascheduler.Http.VastAI
