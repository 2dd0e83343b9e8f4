import Mathlib.Data.List.Forall2
import Mathlib.Data.List.Perm.Basic
import Yascheduler.Application.Reservation
import Yascheduler.Infra.ConfigParser

/-!
# Which clouds are configured

A section is accepted exactly if every provider it mentions and that is known
has its required fields, numbers that can be read and that are in their
intervals, and, on Azure, no user `root` of its own. What is then returned is
one configuration for each such provider, each field with the value of its
option or with its default – but for the user, which is that of the remote
machines before it is the default.

Every value is interpolated before it is any of this, and one that cannot be is
an error. This also goes for the inherited user name. It is written into the
section for every provider that is mentioned, known or not, so one that may not
be written is an error even if no known provider needs it. A name without
percent signs is inherited as it is (`getOption_inherited`).

The order in which the providers are visited matters for nothing but the error
that is raised. This is also what the bounds on the number of nodes rest on:
every provider is there at most once, under its name.
-/

namespace Yascheduler.ConfigParser

open Store

/-! ## Loops that raise -/

section

variable {ε α β : Type}

/-- **A list that was read**, element by element. The first element that cannot be
read is the error, so none of them is one. -/
theorem mapM_eq_ok_iff {f : α → Except ε β} {as : List α} {bs : List β} :
    as.mapM f = .ok bs ↔ List.Forall₂ (fun a b => f a = .ok b) as bs := by
  induction as generalizing bs with
  | nil =>
    rw [List.mapM_nil, List.forall₂_nil_left_iff]
    exact ⟨fun h => (Except.ok.inj h).symm, fun h => h ▸ rfl⟩
  | cons a as ih =>
    rw [List.mapM_cons, List.forall₂_cons_left_iff]
    constructor
    · intro h
      cases ha : f a with
      | error e =>
        rw [ha] at h
        cases h
      | ok b =>
        rw [ha] at h
        cases has : as.mapM f with
        | error e =>
          rw [has] at h
          cases h
        | ok bs' =>
          rw [has] at h
          exact ⟨b, bs', rfl, ih.mp has, (Except.ok.inj h).symm⟩
    · rintro ⟨b, bs', ha, has, rfl⟩
      rw [ha, ih.mpr has]
      rfl

/-- Checks that were passed. -/
theorem forM_eq_ok_iff {f : α → Except ε Unit} {as : List α} :
    as.forM f = .ok () ↔ ∀ a ∈ as, f a = .ok () := by
  induction as with
  | nil => simp [pure, Except.pure]
  | cons a as ih =>
    rw [List.forall_mem_cons, ← ih]
    show (f a >>= fun _ => as.forM f) = _ ↔ _
    cases ha : f a with
    | error e => simp [bind, Except.bind]
    | ok u => simp [bind, Except.bind]

/-- A computation that returned, in two parts. -/
theorem bind_eq_ok_iff {x : Except ε α} {f : α → Except ε β} {b : β} :
    (x >>= f) = .ok b ↔ ∃ a, x = .ok a ∧ f a = .ok b := by
  cases x <;> simp [bind, Except.bind]

/-- What the second list has for an element of the first. -/
theorem exists_of_forall₂ {R : α → β → Prop} {as : List α} {bs : List β}
    (h : List.Forall₂ R as bs) {a : α} (ha : a ∈ as) : ∃ b ∈ bs, R a b := by
  induction h with
  | nil => cases ha
  | cons hab _ ih =>
    rcases List.mem_cons.mp ha with rfl | ha
    · exact ⟨_, List.mem_cons_self, hab⟩
    · obtain ⟨b, hb, hr⟩ := ih ha
      exact ⟨b, List.mem_cons_of_mem _ hb, hr⟩

/-- A second list, if there is an element for each of the first. -/
theorem exists_forall₂ {R : α → β → Prop} {as : List α} (h : ∀ a ∈ as, ∃ b, R a b) :
    ∃ bs, List.Forall₂ R as bs := by
  induction as with
  | nil => exact ⟨[], .nil⟩
  | cons a as ih =>
    obtain ⟨⟨b, hb⟩, has⟩ := List.forall_mem_cons.mp h
    obtain ⟨bs, hbs⟩ := ih has
    exact ⟨b :: bs, .cons hb hbs⟩

end

/-! ## One provider

A configuration is described by its options, field by field, and the
description is one that a user could check. The parser reads the fields in
order and stops at the first that is wrong. So a section that is accepted has
no wrong field, and one without a wrong field is accepted. -/

/-- The value is in an interval. A value that is no number is in none. -/
structure Value.Within (v : Value) (bottom : Int) (top : Option Int) : Prop where
  above : v.below bottom = false
  below : ∀ t ∈ top, v.above t = false

/-- The check is passed by the values in the interval. -/
theorem validateInterval_eq_ok_iff {env : Env} {name : String} {v : Value} {bottom : Int}
    {top : Option Int} :
    validateInterval env name v bottom top = .ok () ↔ v.Within bottom top := by
  have hwithin : v.Within bottom top ↔
      v.below bottom = false ∧ ∀ t ∈ top, v.above t = false :=
    ⟨fun h => ⟨h.above, h.below⟩, fun h => ⟨h.1, h.2⟩⟩
  rw [hwithin]
  unfold validateInterval
  cases hb : v.below bottom with
  | true => simp
  | false =>
    cases top with
    | none => simp
    | some t => cases ht : v.above t <;> simp [ht]

/-- An option of a number is read as a number. -/
theorem readField_int {env : Env} {key : String} {value : Option String} {d : Int} {v : Value}
    (h : readField env key value (.int d) = .ok v) : ∃ n, v = .int n := by
  simp only [readField] at h
  split at h
  · exact ⟨d, (Except.ok.inj h).symm⟩
  · split at h
    · exact ⟨_, (Except.ok.inj h).symm⟩
    · cases h

/-- **The configuration is what the options say**: each field has the value of
its option or its default, and each number is in its interval. -/
structure Configures (env : Env) (get : String → Except String (Option String))
    (provider : String) (spec : CloudSpec) (c : ConfigCloud) : Prop where
  named : c.provider = provider
  fields : List.Forall₂ (fun f v => v.1 = f.1 ∧ ∃ value,
    get (optionOf provider f.1) = .ok value ∧
      readField env (optionOf provider f.1) value f.2 = .ok v.2) spec.fields c.values
  checks : ∀ k ∈ spec.checks, ((c.values.get k.field).getD .none).Within k.bottom k.top

section

variable {env : Env} {get : String → Except String (Option String)} {provider : String}
  {spec : CloudSpec} {c : ConfigCloud}

/-- The fields are read one by one, each from its option. -/
theorem readFields_eq_ok_iff {fields : List (String × Kind)} {values : Dict String Value} :
    readFields env get provider fields = .ok values ↔
      List.Forall₂ (fun f v => v.1 = f.1 ∧ ∃ value, get (optionOf provider f.1) = .ok value ∧
        readField env (optionOf provider f.1) value f.2 = .ok v.2) fields values := by
  have hentry : ∀ (f : String × Kind) (v : String × Value),
      ((do
        let value ← get (optionOf provider f.1)
        let v ← readField env (optionOf provider f.1) value f.2
        return (f.1, v)) = Except.ok v) ↔
        v.1 = f.1 ∧ ∃ value, get (optionOf provider f.1) = .ok value ∧
          readField env (optionOf provider f.1) value f.2 = .ok v.2 := by
    intro f v
    rw [bind_eq_ok_iff]
    constructor
    · rintro ⟨value, hget, hread⟩
      obtain ⟨a, ha, hv⟩ := bind_eq_ok_iff.mp hread
      obtain rfl := Except.ok.inj hv
      exact ⟨rfl, value, hget, ha⟩
    · rintro ⟨hname, value, hget, hread⟩
      exact ⟨value, hget, bind_eq_ok_iff.mpr ⟨v.2, hread, by rw [← hname]; rfl⟩⟩
  unfold readFields
  rw [mapM_eq_ok_iff]
  simp only [hentry]

/-- A section is read exactly as it configures the provider. -/
theorem parseCloudSection_eq_ok_iff :
    parseCloudSection env get provider spec = .ok c ↔ Configures env get provider spec c := by
  unfold parseCloudSection postInit
  rw [bind_eq_ok_iff]
  constructor
  · rintro ⟨values, hvalues, hrest⟩
    obtain ⟨_, hchecks, hret⟩ := bind_eq_ok_iff.mp hrest
    obtain rfl := Except.ok.inj hret
    refine ⟨rfl, readFields_eq_ok_iff.mp hvalues, fun k hk => ?_⟩
    exact validateInterval_eq_ok_iff.mp (forM_eq_ok_iff.mp hchecks k hk)
  · rintro ⟨rfl, hfields, hchecks⟩
    refine ⟨c.values, readFields_eq_ok_iff.mpr hfields, bind_eq_ok_iff.mpr ⟨(), ?_, rfl⟩⟩
    exact forM_eq_ok_iff.mpr fun k hk => validateInterval_eq_ok_iff.mpr (hchecks k hk)

namespace Configures

variable {field : String}

/-- The fields are those of the table. -/
theorem keys (h : Configures env get provider spec c) :
    c.values.map Prod.fst = spec.fields.map Prod.fst := by
  refine List.forall₂_eq_eq_eq ▸ ?_
  rw [List.forall₂_map_left_iff, List.forall₂_map_right_iff]
  exact List.Forall₂.flip (h.fields.imp fun _ _ hv => hv.1)

/-- **A number is read as one**, and is in its interval. This is what the scheduler
relies on where it reads a limit or a time. -/
theorem int_within (h : Configures env get provider spec c)
    (hnodup : (spec.fields.map Prod.fst).Nodup) {d bottom : Int} {top : Option Int}
    (hfield : (field, Kind.int d) ∈ spec.fields)
    (hcheck : { field := field, bottom := bottom, top := top } ∈ spec.checks) :
    bottom ≤ c.int field ∧ ∀ t ∈ top, c.int field ≤ t := by
  obtain ⟨v, hv, hname, value, -, hread⟩ := exists_of_forall₂ h.fields hfield
  obtain ⟨n, hn⟩ := readField_int hread
  have hget : c.values.get field = some (.int n) := by
    have hmem := Dict.get_of_mem (h.keys ▸ hnodup) hv
    rwa [hname, hn] at hmem
  have hwithin := h.checks _ hcheck
  unfold ConfigCloud.int
  dsimp only at hwithin
  rw [hget] at hwithin ⊢
  refine ⟨?_, fun t ht => ?_⟩
  · simpa [Value.below] using hwithin.above
  · simpa [Value.above] using hwithin.below t ht

end Configures

end

/-! ## The section

The section is changed before it is read, because the user names are written
into it. The set of the providers is iterated for that, in an order that nobody
knows. Every provider has an option of its own, so the writes do not interfere,
and the result does not depend on the order. -/

/-- **What stands for an option**: its value, or the inherited user if it names the
user of a provider that is mentioned. It is not yet interpolated. -/
def effective (sec : Dict String String) (username key : String) : Option String :=
  (sec.get key).or (if key ∈ (cloudPrefixes sec).map userKey then some username else none)

section

variable {env : Env} {sec : Dict String String} {username : String} {order : List String}

/-- The section with the user of a provider. -/
def withUser (username : String) (sec : Dict String String) (provider : String) :
    Dict String String :=
  if (sec.get (userKey provider)).isSome then sec else sec.set (userKey provider) username

/-- **The name may be inherited**, or nobody inherits it. It is written into the
section, and `ConfigParser` refuses a text there that it could not interpolate. -/
def Inheritable (sec : Dict String String) (username : String) (providers : List String) : Prop :=
  Interpolation.settable username.toList = true ∨
    ∀ provider ∈ providers, (sec.get (userKey provider)).isSome = true

/-- The users are inherited one after the other, unless the name may not be
inherited. -/
theorem foldlM_inheritUser {inherited : Dict String String} :
    order.foldlM (inheritUser username) sec = .ok inherited ↔
      Inheritable sec username order ∧ order.foldl (withUser username) sec = inherited := by
  induction order generalizing sec with
  | nil => simp [Inheritable, pure, Except.pure]
  | cons provider order ih =>
    rw [List.foldlM_cons, List.foldl_cons, bind_eq_ok_iff]
    cases huser : (sec.get (userKey provider)).isSome with
    | true =>
      have hstep : inheritUser username sec provider = .ok sec := if_pos huser
      have hwith : withUser username sec provider = sec := if_pos huser
      rw [hstep, hwith]
      simp only [Except.ok.injEq, exists_eq_left', ih]
      simp [Inheritable, huser]
    | false =>
      have hnot : ¬ (sec.get (userKey provider)).isSome = true := by simp [huser]
      have hwith : withUser username sec provider = sec.set (userKey provider) username :=
        if_neg hnot
      cases hset : Interpolation.settable username.toList with
      | true =>
        have hstep : inheritUser username sec provider =
            .ok (sec.set (userKey provider) username) := (if_neg hnot).trans (if_pos hset)
        rw [hstep, hwith]
        simp only [Except.ok.injEq, exists_eq_left', ih]
        simp [Inheritable, hset]
      | false =>
        have hstep : inheritUser username sec provider =
            .error ("invalid interpolation syntax in " ++ username) :=
          (if_neg hnot).trans (if_neg (by simp [hset]))
        rw [hstep]
        simp [Inheritable, hset, huser]

/-- What is found in a section with an inherited user. -/
theorem get_withUser (provider key : String) :
    (withUser username sec provider).get key =
      (sec.get key).or (if key = userKey provider then some username else none) := by
  unfold withUser
  by_cases hkey : key = userKey provider
  · subst hkey
    rw [if_pos rfl]
    split
    · rename_i hsome
      obtain ⟨v, hv⟩ := Option.isSome_iff_exists.mp hsome
      rw [hv, Option.some_or]
    · rename_i hnone
      rw [Dict.get_set_self, Option.not_isSome_iff_eq_none.mp hnone, Option.none_or]
  · rw [if_neg hkey, Option.or_none]
    split
    · rfl
    · exact Dict.get_set_ne _ _ hkey

/-- The users that are inherited do not depend on the order. -/
theorem get_inherited (key : String) :
    Dict.get (order.foldl (withUser username) sec) key =
      (sec.get key).or (if key ∈ order.map userKey then some username else none) := by
  induction order generalizing sec with
  | nil => simp
  | cons provider order ih =>
    rw [List.foldl_cons, ih, get_withUser, Option.or_assoc, List.map_cons]
    congr 1
    by_cases hkey : key = userKey provider
    · simp [hkey]
    · simp [hkey]

/-- So what is found in the end is what stands for the option. -/
theorem get_inherited_eq_effective (h : order.Perm (cloudPrefixes sec)) :
    Dict.get (order.foldl (withUser username) sec) = effective sec username := by
  funext key
  rw [get_inherited]
  unfold effective
  simp only [(h.map userKey).mem_iff]

/-- No provider is in the table twice. -/
theorem nodup_cloudSpecs : (cloudSpecs.map Prod.fst).Nodup := by decide

/-- These are the providers that are mentioned and in the table. -/
theorem mem_knownClouds {e : String × CloudSpec} :
    e ∈ knownClouds order ↔ e.1 ∈ order ∧ e ∈ cloudSpecs := by
  unfold knownClouds
  rw [List.mem_filterMap]
  constructor
  · rintro ⟨provider, hmem, he⟩
    obtain ⟨spec, hspec, rfl⟩ := Option.map_eq_some_iff.mp he
    exact ⟨hmem, Dict.mem_of_get hspec⟩
  · rintro ⟨hmem, he⟩
    refine ⟨e.1, hmem, ?_⟩
    rw [Dict.get_of_mem nodup_cloudSpecs he]
    rfl

/-- None of them is there twice. -/
theorem nodup_knownClouds (h : order.Nodup) : ((knownClouds order).map Prod.fst).Nodup := by
  have hfst : (knownClouds order).map Prod.fst =
      order.filter fun p => (cloudSpecs.get p).isSome := by
    unfold knownClouds
    induction order with
    | nil => rfl
    | cons p order ih =>
      rw [List.filterMap_cons, List.filter_cons]
      cases hp : cloudSpecs.get p with
      | none => simpa [hp] using ih (List.nodup_cons.mp h).2
      | some spec => simpa [hp] using ih (List.nodup_cons.mp h).2
  rw [hfst]
  exact h.filter _

/-- The user of a provider is not `root`, or may be. -/
def MayBe (env : Env) (sec : Dict String String) (provider : String) (spec : CloudSpec) : Prop :=
  spec.bansRoot = true → ∃ user,
    getOption env sec.get (userKey provider) = .ok user ∧ user ≠ some "root"

/-- The check is passed if the user may be that of the provider. -/
theorem preCheck_eq_ok_iff {provider : String} {spec : CloudSpec} :
    preCheck env sec provider spec = .ok () ↔ MayBe env sec provider spec := by
  unfold preCheck MayBe banRootUser
  cases spec.bansRoot with
  | false => simp
  | true =>
    rw [if_pos rfl, bind_eq_ok_iff]
    constructor
    · rintro ⟨user, hget, hroot⟩ -
      exact ⟨user, hget, fun h => by simp [h] at hroot⟩
    · intro h
      obtain ⟨user, hget, hroot⟩ := h rfl
      exact ⟨user, hget, if_neg hroot⟩

/-- **What `parse_clouds` returns**, whatever the order. The order in which a set is
iterated is not specified, so it is a parameter. -/
theorem parseClouds_eq_ok_iff (h : order.Perm (cloudPrefixes sec)) {clouds : List ConfigCloud} :
    parseClouds env sec username order = .ok clouds ↔
      (∀ e ∈ knownClouds order, MayBe env sec e.1 e.2) ∧
      Inheritable sec username order ∧
      List.Forall₂ (fun e c => Configures env (getOption env (effective sec username)) e.1 e.2 c)
        (knownClouds order) clouds := by
  unfold parseClouds
  rw [bind_eq_ok_iff]
  constructor
  · rintro ⟨_, hchecks, hrest⟩
    obtain ⟨inherited, hfold, hclouds⟩ := bind_eq_ok_iff.mp hrest
    obtain ⟨hset, rfl⟩ := foldlM_inheritUser.mp hfold
    rw [get_inherited_eq_effective h] at hclouds
    simp only [mapM_eq_ok_iff, parseCloudSection_eq_ok_iff] at hclouds
    exact ⟨fun e he => preCheck_eq_ok_iff.mp (forM_eq_ok_iff.mp hchecks e he), hset, hclouds⟩
  · rintro ⟨huser, hset, hclouds⟩
    refine ⟨(), forM_eq_ok_iff.mpr fun e he => preCheck_eq_ok_iff.mpr (huser e he),
      bind_eq_ok_iff.mpr ⟨_, foldlM_inheritUser.mpr ⟨hset, rfl⟩, ?_⟩⟩
    rw [get_inherited_eq_effective h]
    simp only [mapM_eq_ok_iff, parseCloudSection_eq_ok_iff]
    exact hclouds

/-- The names of the configurations. -/
theorem providers_eq {known : List (String × CloudSpec)} {clouds : List ConfigCloud}
    {get : String → Except String (Option String)}
    (h : List.Forall₂ (fun e c => Configures env get e.1 e.2 c) known clouds) :
    clouds.map (·.provider) = known.map Prod.fst := by
  induction h with
  | nil => rfl
  | cons hc _ ih => rw [List.map_cons, List.map_cons, ih, hc.named]

end

/-- **A name without percent signs is inherited as it is.** Every name that one would
expect of a user is of this kind. -/
theorem getOption_inherited {env : Env} {sec : Dict String String} {username provider : String}
    (hmentioned : provider ∈ cloudPrefixes sec) (hnone : sec.get (userKey provider) = none)
    (hplain : '%' ∉ username.toList) :
    Inheritable sec username (cloudPrefixes sec) ∧
      getOption env (effective sec username) (userKey provider) = .ok (some username) := by
  have hraw : effective sec username (userKey provider) = some username := by
    unfold effective
    rw [hnone, Option.none_or, if_pos (List.mem_map_of_mem hmentioned)]
  refine ⟨.inl (Interpolation.settable_plain hplain), ?_⟩
  unfold getOption
  rw [hraw]
  dsimp only
  rw [show Interpolation.maxDepth = 9 + 1 from rfl, Interpolation.interpolate_plain hplain]
  simp

/-- **A section that can be parsed**: what it says of each provider that it mentions
and that is known. What it says of others is ignored. -/
structure WellFormed (env : Env) (sec : Dict String String) (username : String) : Prop where
  user : ∀ e ∈ cloudSpecs, e.1 ∈ cloudPrefixes sec → MayBe env sec e.1 e.2
  inherits : Inheritable sec username (cloudPrefixes sec)
  fields : ∀ e ∈ cloudSpecs, e.1 ∈ cloudPrefixes sec →
    ∃ c, Configures env (getOption env (effective sec username)) e.1 e.2 c

/-! ## All clouds -/

/-- The fields that every provider has. -/
theorem commonFields : ∀ e ∈ cloudSpecs,
    e.1 ≠ "" ∧ (e.2.fields.map Prod.fst).Nodup ∧
    (∃ d, ("max_nodes", Kind.int d) ∈ e.2.fields) ∧
    (∃ d, ("idle_tolerance", Kind.int d) ∈ e.2.fields) ∧
    (∃ d, ("connect_grace", Kind.int d) ∈ e.2.fields) ∧
    { field := "max_nodes", bottom := 0 } ∈ e.2.checks ∧
    { field := "idle_tolerance", bottom := 1 } ∈ e.2.checks ∧
    { field := "connect_grace", bottom := 1 } ∈ e.2.checks := by
  simp [cloudSpecs, configCloudAzure, configCloudHetzner, configCloudUpcloud,
    configCloudVastAI, configCloudVultr]

namespace ConfiguredClouds

/-- No floats are read, and there are no files. -/
def env : Env where
  float _ := none
  lower := String.toLower
  showFloat _ := ""
  file _ := none

/-- A provider with what it needs, and options of nobody. -/
def clouds : Dict String String :=
  [("hetzner_token", "secret"), ("hetzner_max_nodes", "3"), ("attic_token", "old")]

theorem clouds_parse :
    (parseClouds env clouds "ubuntu" ["attic", "hetzner"]).toOption.isSome = true := by
  decide +kernel

end ConfiguredClouds

end Yascheduler.ConfigParser
