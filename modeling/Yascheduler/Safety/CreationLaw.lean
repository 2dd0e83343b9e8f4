import Yascheduler.Safety.Reconciling

/-!
# The law of a failed creation

The request that creates an instance may fail when the instance is there all
the same. What a creation is to do then is one law for both providers: the
error that leaves it is its own, and every instance it knows of – shown by a
listing, or returned by the request – is deleted, and no other.

## What is known, and what is read

A response tells of an instance whether or not the client can use it. One that
has an id but no address, or an address that is `null`, names a machine that is
billed, and the client rejects it as a whole because something else in it is
not of the shape it expects. So the law is about the instances that a response
*shows*, in any shape, and a clean-up goes by those that the client *reads*.
The two differ by exactly the responses that are not of the client's shape:
`Law.Sound` says that what is read is shown, and `Law.Readable` that a run
shows nothing that is not read somewhere in it.

The rest of the module is about a run that ends with an error. It falls into
what comes before the request, the request, what comes after it and the
clean-up (`runOf`), and only the request and the clean-up tell of instances.
So the law comes down to two things, in `Law.Fails.obeyed_iff`: the error is
that of the creation, and the clean-up knows of whatever the run shows.
-/

namespace Yascheduler.Http

open Async

/-! ## What a response tells

An id is read out of the value of a body, wherever the provider puts it, and
the rest of the value is not looked at. Neither is the status: a failure may
have a body that tells of an instance as well. -/

/-- The value of a body, whatever the status of its response. It is what a reader of
the wire sees, who does not know what the client expects. -/
def body : Except Exc Response → Option Value
  | .ok { text := .ok (.json value), .. } => some value
  | _ => none

/-- An id, as it is written in a path. -/
def Value.idText : Value → Option String
  | .str id => some id
  | .int n => some (Value.int n).intText
  | .bool b => some (Value.bool b).intText
  | _ => none

/-- The id of an instance, whatever else is told of it. -/
def instanceId (item : Value) : Option String := (item.get "id").bind Value.idText

/-! ## The law

The label that makes an instance recognisable has letters that the run has
drawn, so it is a function of the run. That no other instance bears it is an
assumption about chance. With it, the instance that was created is the only one
that a response about the label can tell of, and so the only one that may be
deleted. -/

/-- What the two creations differ in. The argument is made once for both, from what
is said here about each. -/
structure Law where
  api : Api
  /-- the creation without its clean-up -/
  plain : Script CloudCreateNodeDTO
  /-- the label, before the random letters -/
  base : String
  pages : Pages
  /-- the key of an instance in a response -/
  single : String
  /-- the key of the instances in a listing -/
  several : String
  /-- a listed instance has the label -/
  labelled : String → Value → Bool
  /-- the id of a listed instance with the label, as the client reads it -/
  pick : String → Value → Option String
  /-- the id that is kept of what the creation request returns -/
  keeps : Value → Option String
  /-- a listing by label -/
  listing : String → Script (Option String)
  maxListings : Nat
  maxDeletes : Nat

/-- The random letters of a run. -/
def letters (tr : Trace sig) : String :=
  (tr.findSome? fun a => match a with
    | .call .rndLetters l => some l
    | _ => none).getD ""

/-- The unique label of a run. It has the letters that the run has drawn. -/
def Law.label (law : Law) (tr : Trace sig) : String := law.base ++ "-" ++ letters tr

/-- What the request to create a resource came to. It is the only request with this
method and this path. -/
def Api.posted (api : Api) : Answer sig → Option (Except Exc Value)
  | .op (.request req) ans =>
    if req.method = .post && req.path = api.resource then some (outcome ans) else none
  | _ => none

/-- The request to create a resource was sent. -/
def Api.Sent (api : Api) (tr : Trace sig) : Prop := ∃ a ∈ tr, api.posted a ≠ none

/-- The instances with a label that a listing shows, of whatever shape. An instance
with an id is shown, also if everything else about it is missing or null. -/
def Law.shows (law : Law) (label : String) : Answer sig → List String
  | .op (.request req) ans =>
    if isListing law.pages.path (.op (.request req) ans) then
      match (body ans).bind (·.get law.several) with
      | some (.list items) => (items.filter (law.labelled label)).filterMap instanceId
      | _ => []
    else []
  | _ => []

/-- The instance that the request returned, of whatever shape. -/
def Law.returns (law : Law) : Answer sig → Option String
  | .op (.request req) ans =>
    if req.method = .post && req.path = law.api.resource then
      ((body ans).bind (·.get law.single)).bind instanceId
    else none
  | _ => none

/-- The instances that a run knows of. -/
def Law.Knows (law : Law) (tr : Trace sig) (id : String) : Prop :=
  ∃ a ∈ tr, id ∈ law.shows (law.label tr) a ∨ law.returns a = some id

/-- The label is unique: it is that of the instance that was created. -/
def Law.Unique (law : Law) (tr : Trace sig) (mine : String) : Prop :=
  ∀ id, law.Knows tr id → id = mine

/-- The instances with a label that the client finds in a listing. -/
def Law.finds (law : Law) (label : String) : Answer sig → List String :=
  picked law.pages (law.pick label)

/-- The instance whose id is kept when the request has returned it. -/
def Law.kept (law : Law) (a : Answer sig) : Option String :=
  match law.api.posted a with
  | some (.ok value) => law.keeps value
  | _ => none

/-- **Every instance that a run shows is read in it**: some response that tells of
it has the shape that the client expects. An instance without a usable address may
not have it, and then the client does not see its id either. -/
def Law.Readable (law : Law) (tr : Trace sig) : Prop :=
  ∀ id, law.Knows tr id → ∃ a ∈ tr, id ∈ law.finds (law.label tr) a ∨ law.kept a = some id

/-- **What a failed creation is to do.** It is said of the answers alone, in terms
of what they show and not of what the client reads. -/
structure Law.Obeyed (law : Law) (tr : Trace sig) (mine : String) (e : Exc) : Prop where
  /-- the error is that of the creation, not of its clean-up -/
  original : ∃ tr₁ tr₂, tr = tr₁ ++ tr₂ ∧ Finishes law.plain tr₁ (.error e)
  deleted : ∀ id, law.Knows tr id → ∃ ans, .op (.request (law.api.deleteReq id)) ans ∈ tr
  /-- the pages that are asked for make up this many listings -/
  listings : ∃ runs : List (Trace sig), runs.length ≤ law.maxListings ∧
    (∀ run ∈ runs, ∃ r, Finishes (law.listing (law.label tr)) run r) ∧
    tr.filter (isListing law.api.resource) = runs.flatten
  deletions : (deletes tr).length ≤ law.maxDeletes
  only : ∀ req ans, .op (.request req) ans ∈ tr → req.method = .delete →
    req = law.api.deleteReq mine

/-- **What the client reads, a response shows.** The other direction is the one that
may fail. -/
structure Law.Sound (law : Law) : Prop where
  listed : ∀ {label value items item id}, law.pages.items value = .ok items → item ∈ items →
    law.pick label item = some id → ∃ all, value.get law.several = some (.list all) ∧
      item ∈ all ∧ law.labelled label item = true ∧ instanceId item = some id
  created : ∀ {value id}, law.keeps value = some id →
    (value.get law.single).bind instanceId = some id

/-! ## Answers about other things

Most answers of a run create, list and delete nothing, and have to be shown to
be irrelevant to each notion of the law. `Neutral` collects what is irrelevant
to all of them. -/

/-- A deletion is answered. -/
def isDelete : Answer sig → Bool
  | .op (.request req) _ => req.method = .delete
  | _ => false

/-- The answer creates, lists and deletes nothing. Nothing that the law is about has
to do with it. -/
structure Api.Neutral (api : Api) (a : Answer sig) : Prop where
  posted : api.posted a = none
  listing : isListing api.resource a = false
  delete : isDelete a = false

/-- Only keys are asked for, before there is a label. -/
def onKeys (path : String) : Answer sig → Prop
  | .op (.request req) _ => req.path = path ∧ req.method ≠ .delete ∧
      (req.method = .get → req.params ≠ [])
  | .op .lockAcquire _ => True
  | .op _ _ => False
  | .call c _ => c ≠ .rndLetters

/-- What is no page of a listing shows nothing. -/
theorem picked_of_isListing {α : Type} {pages : Pages} {pick : Value → Option α} {a : Answer sig}
    (h : isListing pages.path a = false) : picked pages pick a = [] := by
  match a, h with
  | .op (.request req) ans, h => exact if_neg (h ▸ Bool.false_ne_true)
  | .op (.sleep _) _, _ => rfl
  | .op .lockAcquire _, _ => rfl
  | .op .close _, _ => rfl
  | .op .diverge _, _ => rfl
  | .call _ _, _ => rfl

/-- The creation request, and what it came to. -/
theorem Api.posted_eq_some {api : Api} {a : Answer sig} {o : Except Exc Value} :
    api.posted a = some o ↔ ∃ req ans, a = .op (.request req) ans ∧
      (req.method = .post && req.path = api.resource) = true ∧ outcome ans = o := by
  constructor
  · intro h
    match a, h with
    | .op (.request req) ans, h =>
      cases hpost : (req.method = .post && req.path = api.resource : Bool) with
      | false =>
        rw [posted, hpost] at h
        cases h
      | true =>
        rw [posted, hpost] at h
        exact ⟨req, ans, rfl, hpost, Option.some.inj h⟩
  · rintro ⟨req, ans, rfl, hpost, rfl⟩
    exact if_pos hpost

/-- What the client makes a value of is the value of the body, unless the body
is empty. -/
theorem body_of_outcome {ans : Except Exc Response} {value : Value}
    (h : outcome ans = .ok value) : body ans = some value ∨ value = .null := by
  match ans, h with
  | .error _, h => cases h
  | .ok ⟨status, .error _⟩, h => cases h
  | .ok ⟨status, .ok text⟩, h =>
    simp only [outcome] at h
    split at h
    · cases h
    · cases text with
      | empty => exact .inr (Except.ok.inj h).symm
      | json v => exact .inl (congrArg some (Except.ok.inj h))
      | notJson => cases h
      | unloadable name => cases h

/-- A value that the client has read out of a response is in its body. -/
theorem body_of_get {ans : Except Exc Response} {value item : Value} {key : String}
    (h : outcome ans = .ok value) (hitem : value.get key = some item) :
    (body ans).bind (·.get key) = some item := by
  rcases body_of_outcome h with hbody | rfl
  · rw [hbody]
    exact hitem
  · cases hitem

namespace Law.Sound

variable {law : Law} {label : String} {a : Answer sig} {id : String}

/-- A listing shows what the client finds in it. -/
theorem shows_of_finds (hs : law.Sound) (h : id ∈ law.finds label a) : id ∈ law.shows label a := by
  match a, h with
  | .op (.request req) ans, h =>
    cases hlisting : isListing law.pages.path (.op (.request req) ans) with
    | false =>
      rw [finds, picked_of_isListing hlisting] at h
      cases h
    | true =>
      have hfinds : law.finds label (.op (.request req) ans) = _ := if_pos hlisting
      have hshows : law.shows label (.op (.request req) ans) = _ := if_pos hlisting
      rw [hfinds] at h
      rw [hshows]
      cases hout : outcome ans with
      | error e =>
        rw [hout] at h
        cases h
      | ok value =>
        rw [hout, show (Except.ok value).bind law.pages.items = law.pages.items value from rfl] at h
        cases hitems : law.pages.items value with
        | error e =>
          rw [hitems] at h
          cases h
        | ok items =>
          rw [hitems] at h
          obtain ⟨item, hitem, hpick⟩ := List.mem_filterMap.mp h
          obtain ⟨all, hget, hall, hlabel, hid⟩ := hs.listed hitems hitem hpick
          rw [body_of_get hout hget]
          exact List.mem_filterMap.mpr ⟨item, List.mem_filter.mpr ⟨hall, hlabel⟩, hid⟩
  | .op (.sleep _) _, h => cases h
  | .op .lockAcquire _, h => cases h
  | .op .close _, h => cases h
  | .op .diverge _, h => cases h
  | .call _ _, h => cases h

/-- A response returns what is kept of it. -/
theorem returns_of_kept (hs : law.Sound) (h : law.kept a = some id) : law.returns a = some id := by
  unfold kept at h
  split at h
  · next value hposted =>
    obtain ⟨req, ans, rfl, hpost, hout⟩ := law.api.posted_eq_some.mp hposted
    have hreturns : law.returns (.op (.request req) ans) = _ := if_pos hpost
    rw [hreturns]
    have hid := hs.created h
    cases hget : value.get law.single with
    | none =>
      rw [hget] at hid
      cases hid
    | some item =>
      rw [hget] at hid
      rw [body_of_get hout hget]
      exact hid
  · cases h

end Law.Sound

/-- Without deletions there are none. -/
theorem deletes_eq_nil {tr : Trace sig} (h : ∀ a ∈ tr, isDelete a = false) : deletes tr = [] := by
  refine List.filterMap_eq_nil_iff.mpr fun a ha => ?_
  match a, h a ha with
  | .op (.request req) ans, hdelete => exact if_neg (of_decide_eq_false hdelete)
  | .op (.sleep _) _, _ => rfl
  | .op .lockAcquire _, _ => rfl
  | .op .close _, _ => rfl
  | .op .diverge _, _ => rfl
  | .call _ _, _ => rfl

/-- No request is a neutral answer. -/
theorem Api.neutral_of_request {api : Api} {a : Answer sig}
    (h : ∀ req ans, a ≠ .op (.request req) ans) : api.Neutral a := by
  match a, h with
  | .op (.request req) ans, h => exact absurd rfl (h req ans)
  | .op (.sleep _) _, _ => exact ⟨rfl, rfl, rfl⟩
  | .op .lockAcquire _, _ => exact ⟨rfl, rfl, rfl⟩
  | .op .close _, _ => exact ⟨rfl, rfl, rfl⟩
  | .op .diverge _, _ => exact ⟨rfl, rfl, rfl⟩
  | .call _ _, _ => exact ⟨rfl, rfl, rfl⟩

/-- Neither is a request for another path. -/
theorem Api.neutral_onKeys {api : Api} {path : String} {a : Answer sig} (h : onKeys path a)
    (hpath : path ≠ api.resource) : api.Neutral a := by
  cases a with
  | op o r =>
    cases o with
    | request req =>
      obtain ⟨hreq, hdelete, -⟩ := h
      have hne : req.path ≠ api.resource := hreq ▸ hpath
      exact ⟨by simp [Api.posted, hne], by simp [isListing, hne], decide_eq_false hdelete⟩
    | _ => exact api.neutral_of_request (by rintro _ _ ⟨⟩)
  | call c r => exact api.neutral_of_request (by rintro _ _ ⟨⟩)

/-- Nor one for a resource. -/
theorem Api.neutral_getReq {api : Api} {id : String} {ans : Except Exc Response} :
    api.Neutral (.op (.request (api.getReq id)) ans) :=
  ⟨rfl, by simp [isListing, Api.getReq], rfl⟩

/-- Asking for keys interrupts nothing. -/
theorem interrupt_onKeys {path : String} {a : Answer sig} (h : onKeys path a) :
    interrupt a = none := by
  match a, h with
  | .op (.request req) ans, ⟨_, hdelete, hget⟩ =>
    refine if_neg ?_
    cases hmethod : req.method with
    | get => simpa using hget hmethod
    | post => simp
    | delete => exact absurd hmethod hdelete
  | .op .lockAcquire _, _ => rfl
  | .call _ _, _ => rfl

/-- The letters are drawn after the keys, if the keys come first. -/
theorem letters_append {path : String} {tr tr' : Trace sig} (h : ∀ a ∈ tr, onKeys path a) :
    letters (tr ++ tr') = letters tr' := by
  have hnone : ∀ a ∈ tr, (match a with
      | .call .rndLetters l => some l
      | _ => none : Option String) = none := by
    intro a ha
    match a, h a ha with
    | .op _ _, _ => rfl
    | .call c _, hc => cases c <;> first | rfl | exact absurd rfl hc
  unfold letters
  rw [List.findSome?_append, List.findSome?_eq_none_iff.mpr hnone, Option.none_or]

/-! ## The clean-up

What a clean-up knows of is the id it was given and what its listings have
shown to the client. It deletes the first instance that it finds, and by the
uniqueness of the label the first is the only one. -/

/-- A trace of deleting one resource. It is bounded, begins with a deletion, and
concerns no other resource. -/
structure Api.Deletion (api : Api) (id : String) (n : Nat) (tr : Trace sig) : Prop where
  issued : ∃ ans, .op (.request (api.deleteReq id)) ans ∈ tr
  only : ∀ a ∈ tr, onResource api id a
  bounded : (deletes tr).length ≤ n

section Deletion

variable {api : Api} {id : String} {second fuel : Nat} {tr : Trace sig}

/-- Nothing is created, or listed. -/
theorem onResource_aside {a : Answer sig} (h : onResource api id a) :
    api.posted a = none ∧ isListing api.resource a = false := by
  match a, h with
  | .op (.request _) ans, .inl rfl => exact ⟨rfl, rfl⟩
  | .op (.request _) ans, .inr rfl => exact ⟨rfl, by simp [isListing, Api.getReq]⟩
  | .op (.sleep _) _, _ => exact ⟨rfl, rfl⟩
  | .op .diverge _, _ => exact ⟨rfl, rfl⟩
  | .call .time _, _ => exact ⟨rfl, rfl⟩

theorem Api.Deletion.req_eq {n : Nat} (h : api.Deletion id n tr) {req : Request}
    {ans : Except Exc Response} (hmem : .op (.request req) ans ∈ tr)
    (hmethod : req.method = .delete) : req = api.deleteReq id := by
  rcases h.only _ hmem with hreq | rfl
  · exact hreq
  · cases hmethod

/-- Deleting and verifying is such a deletion. -/
theorem deletion_deleteAndVerify {r : Except Exc Bool}
    (h : Finishes (deleteAndVerify api second fuel id) tr r) (hattempts : 0 < api.deleteAttempts) :
    api.Deletion id api.deleteAttempts tr where
  issued := issued_deleteAndVerify h hattempts
  only := sees_deleteAndVerify api second fuel id tr r h
  bounded := length_deletes_deleteAndVerify h

end Deletion

/-- What a clean-up knows of: the instance it is given, and what it lists. -/
def Law.Traces (law : Law) (label : String) (own : Option String) (tr : Trace sig)
    (id : String) : Prop :=
  own = some id ∨ ∃ a ∈ tr, id ∈ law.finds label a

/-- **A clean-up.** It deletes what it knows of, if it knows of anything. It makes a
bounded number of listings, since the label may show up late. -/
structure Law.CleansUp (law : Law) (label : String) (own : Option String)
    (tr : Trace sig) : Prop where
  posted : ∀ a ∈ tr, law.api.posted a = none
  listings : ∃ runs : List (Trace sig), runs.length ≤ law.maxListings ∧
    (∀ run ∈ runs, ∃ r, Finishes (law.listing label) run r) ∧
    tr.filter (isListing law.api.resource) = runs.flatten
  deletions : (deletes tr).length ≤ law.maxDeletes
  issued : ∀ id, law.Traces label own tr id → ∃ id', law.Traces label own tr id' ∧
    ∃ ans, .op (.request (law.api.deleteReq id')) ans ∈ tr
  only : ∀ req ans, .op (.request req) ans ∈ tr → req.method = .delete →
    ∃ id, law.Traces label own tr id ∧ req = law.api.deleteReq id

/-- The id is known: it is deleted. -/
theorem Api.Deletion.cleansUp {law : Law} {label id : String} {tr : Trace sig}
    (h : law.api.Deletion id law.maxDeletes tr) : law.CleansUp label (some id) tr where
  posted a ha := (onResource_aside (h.only a ha)).1
  listings := ⟨[], Nat.zero_le _, fun _ hrun => (nomatch hrun),
    List.filter_eq_nil_iff.mpr fun a ha => by simp [(onResource_aside (h.only a ha)).2]⟩
  deletions := h.bounded
  issued _ _ := ⟨id, .inl rfl, h.issued⟩
  only _ _ hmem hmethod := ⟨id, .inl rfl, h.req_eq hmem hmethod⟩

/-- What was located is deleted, if anything was. -/
theorem Located.cleansUp {law : Law} {label : String} {tr₁ tr₂ : Trace sig}
    {r : Except Exc (Option String)}
    (h : Located law.api.resource (law.finds label) (law.listing label) law.maxListings tr₁ r)
    (hfound : ∀ id, r = .ok (some id) → law.api.Deletion id law.maxDeletes tr₂)
    (hnone : (∀ id, r ≠ .ok (some id)) → tr₂ = []) : law.CleansUp label none (tr₁ ++ tr₂) := by
  -- nothing is created while listing, and nothing is deleted
  have hlocate : ∀ a ∈ tr₁, law.api.posted a = none ∧ isDelete a = false := by
    intro a ha
    rcases h.asks a ha with hlisting | ⟨seconds, ans, rfl⟩
    · match a, hlisting with
      | .op (.request req) ans, hlisting =>
        simp only [isListing, Bool.and_eq_true, decide_eq_true_eq] at hlisting
        obtain ⟨⟨hmethod, -⟩, -⟩ := hlisting
        exact ⟨by simp [Api.posted, hmethod], by simp [isDelete, hmethod]⟩
    · exact ⟨rfl, rfl⟩
  rcases h.finds with ⟨id, rfl, b, hb, hid⟩ | ⟨hr, hshows⟩
  · have hdeletion := hfound id rfl
    have hknown : law.Traces label none (tr₁ ++ tr₂) id :=
      .inr ⟨b, List.mem_append_left _ hb, hid⟩
    refine ⟨fun a ha => ?_, ?_, ?_, fun _ _ => ⟨id, hknown, ?_⟩, fun req ans hmem hmethod => ?_⟩
    · exact (List.mem_append.mp ha).elim (fun ha => (hlocate a ha).1)
        fun ha => (onResource_aside (hdeletion.only a ha)).1
    · obtain ⟨runs, hlen, hruns, hfilter⟩ := h.runs
      refine ⟨runs, hlen, hruns, ?_⟩
      rw [List.filter_append, hfilter, List.filter_eq_nil_iff.mpr fun a ha => by
        simp [(onResource_aside (hdeletion.only a ha)).2], List.append_nil]
    · rw [deletes_append, deletes_eq_nil fun a ha => (hlocate a ha).2]
      exact hdeletion.bounded
    · obtain ⟨ans, hmem⟩ := hdeletion.issued
      exact ⟨ans, List.mem_append_right _ hmem⟩
    · rcases List.mem_append.mp hmem with hmem | hmem
      · have hdelete := (hlocate _ hmem).2
        exact absurd hmethod (of_decide_eq_false hdelete)
      · exact ⟨id, hknown, hdeletion.req_eq hmem hmethod⟩
  · obtain rfl := hnone hr
    have hunknown : ∀ id, ¬law.Traces label none (tr₁ ++ []) id := by
      rintro id (hown | ⟨a, ha, hid⟩)
      · cases hown
      · rw [List.append_nil] at ha
        rw [hshows a ha] at hid
        cases hid
    rw [List.append_nil] at hunknown ⊢
    refine ⟨fun a ha => (hlocate a ha).1, h.runs, ?_, fun id hid => absurd hid (hunknown id),
      fun req ans hmem hmethod => ?_⟩
    · rw [deletes_eq_nil fun a ha => (hlocate a ha).2]
      exact Nat.zero_le _
    · have hdelete := (hlocate _ hmem).2
      exact absurd hmethod (of_decide_eq_false hdelete)

/-! ## A creation that fails

Only two of the four parts of a run can tell of instances, the answer to the
request and the clean-up, and only the clean-up lists and deletes. The lemmas
below bring each clause of the law to the part that it is about. -/

/-- **How a creation fails**: before the request and after it nothing is created,
listed or deleted, and the rest is clean-up. The parts are named, so that what is
told of instances can be looked for in each. -/
structure Law.Fails (law : Law) (before : Trace sig) (post : Answer sig) (after : Trace sig)
    (o : Except Exc Value) (e₀ : Exc) : Prop where
  early : ∀ a ∈ before, law.api.Neutral a
  posted : law.api.posted post = some o
  late : ∀ a ∈ after, law.api.Neutral a
  plain : Finishes law.plain (before ++ post :: after) (.error e₀)

/-- The whole run, with the clean-up. -/
def runOf (before : Trace sig) (post : Answer sig) (after cleanup : Trace sig) : Trace sig :=
  before ++ post :: (after ++ (cleanup ++ [.op .close (.ok ())]))

section Fails

variable {law : Law} {before after cleanup : Trace sig} {post : Answer sig}
  {o : Except Exc Value} {e e₀ : Exc} {own : Option String} {mine : String}

theorem mem_runOf {a : Answer sig} : a ∈ runOf before post after cleanup ↔
    a ∈ before ∨ a = post ∨ a ∈ after ∨ a ∈ cleanup ∨ a = .op .close (.ok ()) := by
  simp only [runOf, List.mem_append, List.mem_cons, List.not_mem_nil, or_false]

/-- A creation request neither lists nor deletes. -/
theorem aside_of_posted {api : Api} {a : Answer sig} (h : api.posted a ≠ none) :
    isListing api.resource a = false ∧ isDelete a = false := by
  match a, h with
  | .op (.request req) ans, h =>
    have hpost : req.method = .post := by
      by_contra hne
      exact h (by simp [Api.posted, hne])
    exact ⟨by simp [isListing, hpost], by simp [isDelete, hpost]⟩

/-- An answer of the run is one of the clean-up, unless it lists and deletes
nothing. -/
theorem Law.Fails.aside (h : law.Fails before post after o e₀) {a : Answer sig}
    (ha : a ∈ runOf before post after cleanup) :
    a ∈ cleanup ∨ isListing law.api.resource a = false ∧ isDelete a = false := by
  rcases mem_runOf.mp ha with ha | rfl | ha | ha | rfl
  · exact .inr ⟨(h.early a ha).listing, (h.early a ha).delete⟩
  · exact .inr (aside_of_posted (h.posted ▸ Option.some_ne_none o))
  · exact .inr ⟨(h.late a ha).listing, (h.late a ha).delete⟩
  · exact .inl ha
  · exact .inr ⟨rfl, rfl⟩

/-- A part of the run that lists and deletes nothing is left out. -/
theorem Law.Fails.filter_eq (h : law.Fails before post after o e₀) :
    (runOf before post after cleanup).filter (isListing law.api.resource) =
      cleanup.filter (isListing law.api.resource) := by
  have hnil : ∀ {tr : Trace sig}, (∀ a ∈ tr, isListing law.api.resource a = false) →
      tr.filter (isListing law.api.resource) = [] :=
    fun hall => List.filter_eq_nil_iff.mpr fun a ha => by simp [hall a ha]
  have hpost := (aside_of_posted (h.posted ▸ Option.some_ne_none o)).1
  rw [runOf, List.filter_append, List.filter_cons_of_neg (by simp [hpost]), List.filter_append,
    List.filter_append, hnil fun a ha => (h.early a ha).listing,
    hnil fun a ha => (h.late a ha).listing]
  exact List.append_nil _

/-- All deletions are those of the clean-up. -/
theorem Law.Fails.deletes_eq (h : law.Fails before post after o e₀) :
    deletes (runOf before post after cleanup) = deletes cleanup := by
  have hpost : deletes [post] = [] := deletes_eq_nil fun a ha =>
    List.mem_singleton.mp ha ▸ (aside_of_posted (h.posted ▸ Option.some_ne_none o)).2
  rw [runOf, ← List.singleton_append, deletes_append, deletes_append, deletes_append,
    deletes_append, hpost, deletes_eq_nil fun a ha => (h.early a ha).delete,
    deletes_eq_nil fun a ha => (h.late a ha).delete]
  exact List.append_nil _

/-- There is one creation request. -/
theorem Law.Fails.eq_post (h : law.Fails before post after o e₀)
    (hclean : ∀ a ∈ cleanup, law.api.posted a = none) {a : Answer sig}
    (ha : a ∈ runOf before post after cleanup) (hposted : law.api.posted a ≠ none) : a = post := by
  rcases mem_runOf.mp ha with ha | ha | ha | ha | rfl
  · exact absurd (h.early a ha).posted hposted
  · exact ha
  · exact absurd (h.late a ha).posted hposted
  · exact absurd (hclean a ha) hposted
  · exact absurd rfl hposted

/-- A response that returns an instance is that of the creation request. -/
theorem posted_of_returns {a : Answer sig} {id : String} (h : law.returns a = some id) :
    law.api.posted a ≠ none := by
  match a, h with
  | .op (.request req) ans, h =>
    intro hnone
    have hpost : (req.method = .post && req.path = law.api.resource : Bool) ≠ true := fun hpost =>
      Option.some_ne_none _ ((if_pos hpost).symm.trans hnone)
    rw [show law.returns (.op (.request req) ans) = none from if_neg hpost] at h
    cases h

/-- What is told of instances is told in the clean-up. -/
theorem Law.Fails.told (h : law.Fails before post after o e₀) {tells : Answer sig → List String}
    (htells : ∀ a, isListing law.api.resource a = false → tells a = []) {id : String} :
    (∃ a ∈ runOf before post after cleanup, id ∈ tells a) ↔ ∃ a ∈ cleanup, id ∈ tells a := by
  constructor
  · rintro ⟨a, ha, hid⟩
    rcases h.aside ha with ha | ⟨hlisting, -⟩
    · exact ⟨a, ha, hid⟩
    · rw [htells a hlisting] at hid
      cases hid
  · rintro ⟨a, ha, hid⟩
    exact ⟨a, mem_runOf.mpr (.inr (.inr (.inr (.inl ha)))), hid⟩

/-- **What is read in a run is what its clean-up knows of.** So the clean-up deletes
everything that the client could have known. -/
theorem Law.Fails.read_iff (h : law.Fails before post after o e₀) (hs : law.Sound)
    (hpath : law.pages.path = law.api.resource) (hclean : ∀ a ∈ cleanup, law.api.posted a = none)
    (hown : law.kept post = own) {label id : String} :
    (∃ a ∈ runOf before post after cleanup, id ∈ law.finds label a ∨ law.kept a = some id) ↔
      law.Traces label own cleanup id := by
  have htold : (∃ a ∈ runOf before post after cleanup, id ∈ law.finds label a) ↔
      ∃ a ∈ cleanup, id ∈ law.finds label a :=
    h.told fun a ha => picked_of_isListing (hpath ▸ ha)
  constructor
  · rintro ⟨a, ha, hid | hid⟩
    · exact .inr (htold.mp ⟨a, ha, hid⟩)
    · obtain rfl := h.eq_post hclean ha (posted_of_returns (hs.returns_of_kept hid))
      exact .inl (hown.symm.trans hid)
  · rintro (hid | hid)
    · exact ⟨post, mem_runOf.mpr (.inr (.inl rfl)), .inr (hown.trans hid)⟩
    · obtain ⟨a, ha, hid⟩ := htold.mpr hid
      exact ⟨a, ha, .inl hid⟩

/-- **When the law is obeyed**: the error is that of the creation, and what the run
shows is read. The first is a matter of interruptions, and the second of shapes. -/
theorem Law.Fails.obeyed_iff (h : law.Fails before post after o e₀) (hs : law.Sound)
    (hpath : law.pages.path = law.api.resource)
    (hclean : law.CleansUp (law.label (runOf before post after cleanup)) own cleanup)
    (hown : law.kept post = own)
    (hunique : law.Unique (runOf before post after cleanup) mine) :
    law.Obeyed (runOf before post after cleanup) mine e ↔
      e = e₀ ∧ law.Readable (runOf before post after cleanup) := by
  have hread : ∀ id, (∃ a ∈ runOf before post after cleanup,
      id ∈ law.finds (law.label (runOf before post after cleanup)) a ∨ law.kept a = some id) ↔
        law.Traces (law.label (runOf before post after cleanup)) own cleanup id :=
    fun id => h.read_iff hs hpath hclean.posted hown
  have hmine : ∀ id, law.Traces (law.label (runOf before post after cleanup)) own cleanup id →
      id = mine := by
    intro id hid
    obtain ⟨a, ha, hid⟩ := (hread id).mpr hid
    exact hunique id ⟨a, ha, hid.imp hs.shows_of_finds hs.returns_of_kept⟩
  have hdelete : ∀ {req ans}, .op (.request req) ans ∈ runOf before post after cleanup →
      req.method = .delete → .op (.request req) ans ∈ cleanup := by
    intro req ans hmem hmethod
    rcases h.aside hmem with hmem | ⟨-, hnot⟩
    · exact hmem
    · exact absurd hmethod (of_decide_eq_false hnot)
  have hsplit : runOf before post after cleanup =
      (before ++ post :: after) ++ (cleanup ++ [.op .close (.ok ())]) := by
    simp [runOf]
  constructor
  · intro hobeyed
    constructor
    · obtain ⟨tr₁, tr₂, heq, hplain⟩ := hobeyed.original
      have hsame := (hplain.unique h.plain (heq.symm.trans hsplit)).2.1
      exact Except.error.inj hsame
    · -- what is deleted is known to the clean-up, and it is the same instance
      intro id hid
      obtain ⟨ans, hmem⟩ := hobeyed.deleted id hid
      obtain ⟨id', hid', -⟩ := hclean.only _ ans (hdelete hmem rfl) rfl
      rw [hunique id hid, ← hmine id' hid']
      exact (hread id').mpr hid'
  · rintro ⟨rfl, hreadable⟩
    refine ⟨⟨_, _, hsplit, h.plain⟩, fun id hid => ?_, ?_, ?_, fun req ans hmem hmethod => ?_⟩
    · obtain ⟨id', hid', ans, hmem⟩ := hclean.issued id ((hread id).mp (hreadable id hid))
      rw [hunique id hid, ← hmine id' hid']
      exact ⟨ans, mem_runOf.mpr (.inr (.inr (.inr (.inl hmem))))⟩
    · rw [h.filter_eq]
      exact hclean.listings
    · rw [h.deletes_eq]
      exact hclean.deletions
    · obtain ⟨id, hid, rfl⟩ := hclean.only req ans (hdelete hmem hmethod) hmethod
      rw [hmine id hid]

end Fails

end Yascheduler.Http
