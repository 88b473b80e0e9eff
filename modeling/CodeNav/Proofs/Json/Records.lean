import CodeNav.Proofs.Json.Shapes
import Mathlib.Data.List.Forall2

/-!
# Which values are records

A reader takes a record from an object, in which each of its members is there once, or not at all if it may be
missing, and from a list of its members in their order, which may end before those that have a value when they
are missing. These are all the values that it takes.

## Main definitions

* `Json.valuesOf`: the values of the members with a name
* `Json.Label.Takes`: what a record takes from the values under the name of a member
* `Json.Lists`: what a record takes from the items of a list
* `Json.FillsAt`: what a record takes from an object or a list
* `Json.Spells`: the written forms of strings under names

## Main statements

* `Json.accept_record_object`, `Json.accept_record_array`: the records
* `Json.accept_record`: the records of members that are treated alike in objects and in lists
* `Json.accept_merged_object`: the records with the members of another one
-/

namespace CodeNav.Json

variable {name record : String} {fields got out : List (String × Json)} {v w j : Json} {vs got' : List Json}
  {long : Bool} {members : List (Label × Shape)} {l : Label} {shape : Shape}
  {read : Json → Except Mismatch Json} {taken taken' : Option Json}

theorem exists_of_forall₂ {α β : Type} {R : α → β → Prop} {as : List α} {bs : List β} {a : α}
    (h : List.Forall₂ R as bs) (ha : a ∈ as) : ∃ b, R a b := by
  induction h with
  | nil => cases ha
  | cons hab _ ih =>
    rcases List.mem_cons.mp ha with rfl | ha
    · exact ⟨_, hab⟩
    · exact ih ha

/-- Relations that agree on the items of a list relate it to the same lists. -/
theorem forall₂_congr_left {α β : Type} {R S : α → β → Prop} {as : List α} {bs : List β}
    (h : ∀ a ∈ as, ∀ b, R a b ↔ S a b) : List.Forall₂ R as bs ↔ List.Forall₂ S as bs := by
  rw [List.forall₂_iff_zip, List.forall₂_iff_zip]
  exact and_congr_right fun _ ↦ forall₂_congr fun a b ↦
    forall_congr' fun hzip ↦ h a (List.of_mem_zip hzip).1 b

theorem mapM_cons_eq_ok {α β ε : Type} {f : α → Except ε β} {a : α} {as : List α} {bs : List β} :
    (a :: as).mapM f = .ok bs ↔ ∃ b rest, f a = .ok b ∧ as.mapM f = .ok rest ∧ bs = b :: rest := by
  rw [List.mapM_cons]
  cases f a with
  | error e => simp [bind, Except.bind]
  | ok b => cases as.mapM f <;> simp [bind, Except.bind, pure, Except.pure, eq_comm]

/-- Values that are read one by one. -/
theorem mapM_eq_ok_iff {α β ε : Type} {f : α → Except ε β} {as : List α} {bs : List β} :
    as.mapM f = .ok bs ↔ List.Forall₂ (fun a b ↦ f a = .ok b) as bs := by
  induction as generalizing bs with
  | nil => simp [pure, Except.pure, eq_comm]
  | cons a as ih =>
    rw [mapM_cons_eq_ok, List.forall₂_cons_left_iff]
    simp only [ih]

/-! ### Values under a name -/

/-- The values of the members with a name. An object that was read from a text has at most one of them. -/
def valuesOf (name : String) (fields : List (String × Json)) : List Json :=
  (fields.filter fun f ↦ f.1 = name).map Prod.snd

theorem valuesOf_cons_self (v : Json) (fields : List (String × Json)) :
    valuesOf name ((name, v) :: fields) = v :: valuesOf name fields := by
  simp [valuesOf]

theorem valuesOf_cons_of_ne {f : String × Json} (h : f.1 ≠ name) (fields : List (String × Json)) :
    valuesOf name (f :: fields) = valuesOf name fields := by
  simp [valuesOf, h]

theorem lookup_eq_head? (name : String) (fields : List (String × Json)) :
    lookup name fields = (valuesOf name fields).head? := by
  induction fields with
  | nil => rfl
  | cons f fields ih =>
    by_cases hf : f.1 = name
    · subst hf
      rw [valuesOf_cons_self, lookup, if_pos rfl, List.head?_cons]
    · rw [valuesOf_cons_of_ne hf, lookup, if_neg hf, ih]

/-- Members that are left out do not matter to those with other names. -/
theorem valuesOf_filter {p : String × Json → Bool} (h : ∀ v, p (name, v) = true) :
    valuesOf name (fields.filter p) = valuesOf name fields := by
  rw [valuesOf, valuesOf, List.filter_filter]
  refine congrArg _ (List.filter_congr fun f _ ↦ ?_)
  by_cases hf : f.1 = name
  · have hp : p f = true := by simpa [← hf] using h f.2
    simp [hp]
  · simp [hf]

/-! ### Members that are taken from an object -/

/-- What has been taken for a member before and after the values under its name: there is at most one. -/
inductive Gathers (read : Json → Except Mismatch Json) : Option Json → List Json → Option Json → Prop
  | keep (taken : Option Json) : Gathers read taken [] taken
  | take {v w : Json} (h : read v = .ok w) : Gathers read none [v] (some w)

theorem gathers_nil : Gathers read taken [] taken' ↔ taken' = taken :=
  ⟨fun h ↦ by cases h; rfl, by rintro rfl; exact .keep _⟩

theorem gathers_cons : Gathers read taken (v :: vs) taken' ↔
    taken = none ∧ vs = [] ∧ ∃ w, read v = .ok w ∧ taken' = some w :=
  ⟨fun h ↦ by cases h with | take h => exact ⟨rfl, rfl, _, h, rfl⟩,
    fun ⟨ht, hvs, _, hw, ht'⟩ ↦ ht ▸ hvs ▸ ht' ▸ .take hw⟩

theorem Gathers.unique {taken₁ taken₂ : Option Json} (h₁ : Gathers read taken vs taken₁)
    (h₂ : Gathers read taken vs taken₂) : taken₁ = taken₂ := by
  cases h₁ with
  | keep => exact (gathers_nil.mp h₂).symm
  | take h =>
    obtain ⟨-, -, w, hw, rfl⟩ := gathers_cons.mp h₂
    rw [Except.ok.inj (h.symm.trans hw)]

/-- A key that belongs to a member is its name. -/
theorem exists_of_acceptMember (hmembers : Distinct members) {key : String} {r : Except Mismatch Json}
    (h : acceptMember long members key v = some (name, r)) :
    ∃ l shape, (l, shape) ∈ members ∧ l.name = name ∧ key = name ∧ r = shape.acceptWith long v := by
  obtain rfl := eq_of_acceptMember hmembers.plain h
  have hmem : ∃ m ∈ members, m.1.isKey key = true := by
    by_contra hnone
    push Not at hnone
    have heq : acceptMember long members key v = none := by
      clear h hmembers
      induction members with
      | nil => rfl
      | cons m members ih =>
        rw [acceptMember, if_neg (hnone m List.mem_cons_self)]
        exact ih fun m' hm' ↦ hnone m' (List.mem_cons_of_mem _ hm')
    cases h.symm.trans heq
  obtain ⟨⟨l, shape⟩, hl, hkey⟩ := hmem
  have hname : l.name = key := by
    have hplain : l.alias? = none := hmembers.plain _ hl
    simpa [Label.isKey, hplain, eq_comm] using hkey
  have haccept : acceptMember long members l.name v = some (l.name, shape.acceptWith long v) :=
    acceptMember_of_mem hmembers hl v
  rw [hname, h] at haccept
  exact ⟨l, shape, hl, hname, rfl, (Prod.mk.inj (Option.some.inj haccept)).2⟩

/-- A reader takes what is there under the name of a member. -/
theorem gathers_of_collect (hmembers : Distinct members) (hl : (l, shape) ∈ members)
    (h : collect long members fields got = .ok out) :
    Gathers (shape.acceptWith long) (lookup l.name got) (valuesOf l.name fields) (lookup l.name out) := by
  induction fields generalizing got with
  | nil =>
    obtain rfl := Except.ok.inj h
    exact .keep _
  | cons f fields ih =>
    obtain ⟨key, v⟩ := f
    have hself (v : Json) : acceptMember long members l.name v = some (l.name, shape.acceptWith long v) :=
      acceptMember_of_mem hmembers hl v
    rcases collect_cons.mp h with ⟨hnone, hrest⟩ | ⟨k, r, got', hsome, hadd, hrest⟩
    · have hkey : key ≠ l.name := by
        rintro rfl
        cases (hself v).symm.trans hnone
      rw [valuesOf_cons_of_ne hkey]
      exact ih hrest
    · obtain ⟨hnew, w, rfl, rfl⟩ := addMember_eq_ok.mp hadd
      obtain rfl := eq_of_acceptMember hmembers.plain hsome
      by_cases hkey : key = l.name
      · subst hkey
        obtain ⟨-, hread⟩ := Prod.mk.inj (Option.some.inj ((hself v).symm.trans hsome))
        have hmore := ih hrest
        rw [lookup, if_pos rfl] at hmore
        rw [valuesOf_cons_self, hnew]
        cases hvs : valuesOf l.name fields with
        | nil =>
          rw [hvs, gathers_nil] at hmore
          rw [hmore]
          exact .take hread
        | cons u us =>
          rw [hvs, gathers_cons] at hmore
          cases hmore.1
      · have hmore := ih hrest
        rw [lookup, if_neg hkey] at hmore
        rwa [valuesOf_cons_of_ne hkey]

/-- A reader gets through the members of an object in which each member is as it is wanted. -/
theorem exists_collect (hmembers : Distinct members)
    (h : ∀ l shape, (l, shape) ∈ members → ∃ taken,
      Gathers (shape.acceptWith long) (lookup l.name got) (valuesOf l.name fields) taken) :
    ∃ out, collect long members fields got = .ok out := by
  induction fields generalizing got with
  | nil => exact ⟨got, rfl⟩
  | cons f fields ih =>
    obtain ⟨key, v⟩ := f
    rcases hkey : acceptMember long members key v with _ | ⟨k, r⟩
    · have hmore : ∀ l shape, (l, shape) ∈ members → ∃ taken,
          Gathers (shape.acceptWith long) (lookup l.name got) (valuesOf l.name fields) taken := by
        intro l shape hl
        have hne : key ≠ l.name := by
          rintro rfl
          cases (acceptMember_of_mem hmembers hl v).symm.trans hkey
        have hvalues := h l shape hl
        rwa [valuesOf_cons_of_ne hne] at hvalues
      obtain ⟨out, hout⟩ := ih hmore
      exact ⟨out, collect_cons.mpr (Or.inl ⟨hkey, hout⟩)⟩
    · obtain ⟨l, shape, hl, rfl, rfl, rfl⟩ := exists_of_acceptMember hmembers hkey
      obtain ⟨taken, htaken⟩ := h l shape hl
      rw [valuesOf_cons_self, gathers_cons] at htaken
      obtain ⟨hnew, hrest, w, hw, -⟩ := htaken
      have hmore : ∀ l' shape', (l', shape') ∈ members → ∃ taken,
          Gathers (shape'.acceptWith long) (lookup l'.name ((l.name, w) :: got))
            (valuesOf l'.name fields) taken := by
        intro l' shape' hl'
        rw [lookup]
        split
        · rename_i heq
          rw [← heq, hrest]
          exact ⟨some w, .keep _⟩
        · rename_i hne
          have hvalues := h l' shape' hl'
          rwa [valuesOf_cons_of_ne hne] at hvalues
      obtain ⟨out, hout⟩ := ih hmore
      refine ⟨out, collect_cons.mpr (Or.inr ⟨l.name, _, _, hkey, ?_, hout⟩)⟩
      exact addMember_eq_ok.mpr ⟨hnew, w, hw, rfl⟩

/-- What a record takes from the values under the name of a member. -/
inductive Label.Takes (l : Label) (read : Json → Except Mismatch Json) : List Json → Json → Prop
  | missing {w : Json} (h : l.complete? none = some w) : Takes l read [] w
  | found {v w : Json} (h : read v = .ok w) : Takes l read [v] w

theorem Label.takes_iff : l.Takes read vs w ↔
    ∃ taken, Gathers read none vs taken ∧ l.complete? taken = some w := by
  constructor
  · intro h
    cases h with
    | missing h => exact ⟨none, .keep none, h⟩
    | found h => exact ⟨some w, .take h, rfl⟩
  · rintro ⟨taken, hgathers, hw⟩
    cases hgathers with
    | keep => exact .missing hw
    | take h =>
      obtain rfl := Option.some.inj hw
      exact .found h

/-- The members of a record, each with what was taken for it. -/
theorem complete_eq_ok {labels : List Label} : complete labels got = .ok out ↔
    List.Forall₂ (fun l f ↦ f.1 = l.name ∧ l.complete? (lookup l.name got) = some f.2) labels out := by
  induction labels generalizing out with
  | nil =>
    rw [List.forall₂_nil_left_iff]
    exact ⟨fun h ↦ (Except.ok.inj h).symm, fun h ↦ h ▸ rfl⟩
  | cons l labels ih =>
    rw [complete_cons, List.forall₂_cons_left_iff]
    constructor
    · rintro ⟨v, rest, hv, hrest, rfl⟩
      exact ⟨(l.name, v), rest, ⟨rfl, hv⟩, ih.mp hrest, rfl⟩
    · rintro ⟨⟨name, v⟩, rest, ⟨rfl, hv⟩, hrest, rfl⟩
      exact ⟨v, rest, hv, ih.mpr hrest, rfl⟩

/-- The members that a record takes from those of an object. -/
def Fills (long : Bool) (members : List (Label × Shape)) (fields out : List (String × Json)) : Prop :=
  List.Forall₂ (fun m f ↦ f.1 = m.1.name ∧
    m.1.Takes (m.2.acceptWith long) (valuesOf m.1.name fields) f.2) members out

theorem fills_nil : Fills long [] fields out ↔ out = [] :=
  List.forall₂_nil_left_iff

theorem fills_cons {m : Label × Shape} : Fills long (m :: members) fields out ↔
    ∃ w rest, m.1.Takes (m.2.acceptWith long) (valuesOf m.1.name fields) w ∧
      Fills long members fields rest ∧ out = (m.1.name, w) :: rest := by
  rw [Fills, List.forall₂_cons_left_iff]
  constructor
  · rintro ⟨⟨name, w⟩, rest, ⟨rfl, hw⟩, hrest, rfl⟩
    exact ⟨w, rest, hw, hrest, rfl⟩
  · rintro ⟨w, rest, hw, hrest, rfl⟩
    exact ⟨_, rest, ⟨rfl, hw⟩, hrest, rfl⟩

theorem takes_needed : (needed name shape).1.Takes read vs w ↔ ∃ v, vs = [v] ∧ read v = .ok w := by
  constructor
  · intro h
    cases h with
    | missing h => cases h
    | found h => exact ⟨_, rfl, h⟩
  · rintro ⟨v, rfl, h⟩
    exact .found h

/-- A member that has to be there is taken from its only value. -/
theorem fills_needed : Fills long (needed name shape :: members) fields out ↔
    ∃ v w rest, valuesOf name fields = [v] ∧ shape.acceptWith long v = .ok w ∧
      Fills long members fields rest ∧ out = (name, w) :: rest := by
  rw [fills_cons]
  constructor
  · rintro ⟨w, rest, hw, hrest, rfl⟩
    obtain ⟨v, hv, hread⟩ := takes_needed.mp hw
    exact ⟨v, w, rest, hv, hread, hrest, rfl⟩
  · rintro ⟨v, w, rest, hv, hread, hrest, rfl⟩
    exact ⟨w, rest, takes_needed.mpr ⟨v, hv, hread⟩, hrest, rfl⟩

/-- The members of a record are taken from those of an object. -/
theorem fills_iff (hmembers : Distinct members) : Fills long members fields out ↔
    ∃ got, collect long members fields [] = .ok got ∧ complete (members.map Prod.fst) got = .ok out := by
  -- What a member is in the end depends on what was gathered for it.
  have hcongr {got : List (String × Json)} (hgot : collect long members fields [] = .ok got)
      (m : Label × Shape) (hm : m ∈ members) (w : Json) :
      m.1.Takes (m.2.acceptWith long) (valuesOf m.1.name fields) w ↔
        m.1.complete? (lookup m.1.name got) = some w := by
    have hgathers : Gathers (m.2.acceptWith long) none (valuesOf m.1.name fields)
        (lookup m.1.name got) := gathers_of_collect hmembers hm hgot
    rw [Label.takes_iff]
    refine ⟨fun ⟨taken, htaken, hw⟩ ↦ ?_, fun hw ↦ ⟨_, hgathers, hw⟩⟩
    rwa [htaken.unique hgathers] at hw
  have hforall {got : List (String × Json)} (hgot : collect long members fields [] = .ok got) :
      Fills long members fields out ↔ complete (members.map Prod.fst) got = .ok out := by
    rw [Fills, complete_eq_ok, List.forall₂_map_left_iff]
    exact forall₂_congr_left fun m hm f ↦ and_congr_right fun _ ↦ hcongr hgot m hm f.2
  constructor
  · intro h
    obtain ⟨got, hgot⟩ : ∃ got, collect long members fields [] = .ok got := by
      refine exists_collect hmembers fun l shape hl ↦ ?_
      obtain ⟨f, hf⟩ := exists_of_forall₂ h hl
      obtain ⟨taken, htaken, -⟩ := Label.takes_iff.mp hf.2
      exact ⟨taken, htaken⟩
    exact ⟨got, hgot, (hforall hgot).mp h⟩
  · rintro ⟨got, hgot, hout⟩
    exact (hforall hgot).mpr hout

/-- An object is a record just when its members are. -/
theorem accept_record_object (hmembers : Distinct members) :
    (Shape.record record members).acceptWith long (.object fields) = .ok j ↔
      ∃ out, j = .object out ∧ Fills long members fields out := by
  simp only [fills_iff hmembers]
  rw [Shape.acceptWith]
  change (collect long members fields [] >>= _) = _ ↔ _
  cases hgot : collect long members fields [] with
  | error e => simp [bind, Except.bind]
  | ok got =>
    cases hout : complete (members.map Prod.fst) got with
    | error e => simp [hout, bind, Except.bind, Except.map]
    | ok out => simp [hout, bind, Except.bind, Except.map, eq_comm]

/-- An object is a record with the members of another one just when its members are, and the others make the
other one. -/
theorem accept_merged_object {rest : Shape} (hmembers : Distinct members) :
    (Shape.merged record members rest).acceptWith long (.object fields) = .ok j ↔
      ∃ mine others, Fills long members fields mine ∧
        rest.acceptWith long (.object (fields.filter fun f ↦ !members.any fun m ↦ m.1.isKey f.1)) =
          .ok others ∧ j = .object (mine ++ others.object?.getD []) := by
  simp only [fills_iff hmembers]
  rw [Shape.acceptWith]
  change (collect long members fields [] >>= _) = _ ↔ _
  cases hgot : collect long members fields [] with
  | error e => simp [bind, Except.bind]
  | ok got =>
    cases hout : complete (members.map Prod.fst) got with
    | error e => simp [hout, bind, Except.bind]
    | ok mine =>
      cases hothers : rest.acceptWith long
          (.object (fields.filter fun f ↦ !members.any fun m ↦ m.1.isKey f.1)) with
      | error e => simp [hout, bind, Except.bind]
      | ok others => cases others <;> simp [hout, bind, Except.bind, object?, eq_comm]

theorem exists_of_accept_merged {rest : Shape}
    (h : (Shape.merged record members rest).acceptWith long v = .ok j) : ∃ fields, v = .object fields := by
  cases v with
  | object fields => exact ⟨fields, rfl⟩
  | _ => cases h

/-! ### Members that are listed in their order -/

/-- What a record takes from the items of a list: a value for each member, as long as the list lasts. -/
inductive Lists : List (Label × Shape) → List Json → List (String × Json) → Prop
  | nil : Lists [] [] []
  | item {m : Label × Shape} {ms : List (Label × Shape)} {v w : Json} {vs : List Json}
      {out : List (String × Json)} (h : m.2.accept v = .ok w) (hrest : Lists ms vs out) :
      Lists (m :: ms) (v :: vs) ((m.1.name, w) :: out)
  | missing {m : Label × Shape} {ms : List (Label × Shape)} {w : Json} {out : List (String × Json)}
      (h : m.1.absence = .means w) (hrest : Lists ms [] out) :
      Lists (m :: ms) [] ((m.1.name, w) :: out)

theorem lists_nil : Lists [] vs out ↔ vs = [] ∧ out = [] :=
  ⟨fun h ↦ by cases h; exact ⟨rfl, rfl⟩, by rintro ⟨rfl, rfl⟩; exact .nil⟩

theorem lists_cons_nil {m : Label × Shape} : Lists (m :: members) [] out ↔
    ∃ w rest, m.1.absence = .means w ∧ Lists members [] rest ∧ out = (m.1.name, w) :: rest :=
  ⟨fun h ↦ by cases h with | missing h hrest => exact ⟨_, _, h, hrest, rfl⟩,
    by rintro ⟨w, rest, h, hrest, rfl⟩; exact .missing h hrest⟩

theorem lists_cons_cons {m : Label × Shape} : Lists (m :: members) (v :: vs) out ↔
    ∃ w rest, m.2.accept v = .ok w ∧ Lists members vs rest ∧ out = (m.1.name, w) :: rest :=
  ⟨fun h ↦ by cases h with | item h hrest => exact ⟨_, _, h, hrest, rfl⟩,
    by rintro ⟨w, rest, h, hrest, rfl⟩; exact .item h hrest⟩

theorem Lists.length_le (h : Lists members vs out) : vs.length ≤ members.length := by
  induction h with
  | nil => exact Nat.le_refl 0
  | item _ _ ih => exact Nat.succ_le_succ ih
  | missing => exact Nat.zero_le _

/-- A member that was listed, or has a value when it is missing. -/
def listedAt (record : String) (all : Nat) (got : List Json) (m : Label × Nat) :
    Except Mismatch (String × Json) :=
  match got[m.2]?, m.1.absence with
  | some v, _ => .ok (m.1.name, v)
  | none, .means v => .ok (m.1.name, v)
  | none, _ => .error (.tooShort m.2 record all)

theorem listedAt_eq_ok {all : Nat} {m : Label × Nat} {f : String × Json} :
    listedAt record all got' m = .ok f ↔ f.1 = m.1.name ∧
      (got'[m.2]? = some f.2 ∨ got'[m.2]? = none ∧ m.1.absence = .means f.2) := by
  obtain ⟨name, v⟩ := f
  rw [listedAt]
  rcases got'[m.2]? with _ | w <;> rcases m.1.absence with _ | _ | w' <;> simp [eq_comm]

theorem acceptItems_cons {m : Label × Shape} {ws : List Json} :
    acceptItems long (m :: members) (v :: vs) = .ok ws ↔
      ∃ w rest, m.2.acceptWith long v = .ok w ∧ acceptItems long members vs = .ok rest ∧ ws = w :: rest := by
  rw [acceptItems]
  cases m.2.acceptWith long v with
  | error e => simp [bind, Except.bind]
  | ok w => cases acceptItems long members vs <;> simp [bind, Except.bind, eq_comm]

theorem exists_acceptItems (h : Lists members vs out) : ∃ ws, acceptItems false members vs = .ok ws := by
  induction h with
  | nil => exact ⟨[], rfl⟩
  | item hv _ ih =>
    obtain ⟨ws, hws⟩ := ih
    exact ⟨_, acceptItems_cons.mpr ⟨_, ws, hv, hws, rfl⟩⟩
  | missing => exact ⟨[], rfl⟩

/-- The members of a record that come after others, when what was read from the list for them stands after
what was read for the others. -/
theorem lists_iff (record : String) (all k : Nat) (hlength : vs.length ≤ members.length)
    (h : acceptItems false members vs = .ok (got'.drop k)) :
    Lists members vs out ↔
      ((members.map Prod.fst).zipIdx k).mapM (listedAt record all got') = .ok out := by
  induction members generalizing vs k out with
  | nil =>
    obtain rfl := List.length_eq_zero_iff.mp (Nat.le_zero.mp hlength)
    simp [lists_nil, pure, Except.pure, eq_comm]
  | cons m members ih =>
    rw [List.map_cons, List.zipIdx_cons, mapM_cons_eq_ok]
    cases vs with
    | nil =>
      have hdrop : got'.drop k = [] := (Except.ok.inj h).symm
      have hnone : got'[k]? = none := List.getElem?_eq_none (List.drop_eq_nil_iff.mp hdrop)
      have hmore : got'.drop (k + 1) = [] := by rw [← List.drop_drop, hdrop, List.drop_nil]
      have hrest {rest : List (String × Json)} : Lists members [] rest ↔
          ((members.map Prod.fst).zipIdx (k + 1)).mapM (listedAt record all got') = .ok rest :=
        ih (k + 1) (Nat.zero_le _) (by rw [hmore]; cases members <;> rfl)
      simp only [lists_cons_nil, listedAt_eq_ok, hnone, hrest]
      constructor
      · rintro ⟨w, rest, hw, hmembers, rfl⟩
        exact ⟨(m.1.name, w), rest, ⟨rfl, Or.inr ⟨trivial, hw⟩⟩, hmembers, rfl⟩
      · rintro ⟨⟨name, w⟩, rest, ⟨rfl, hw⟩, hmembers, rfl⟩
        exact ⟨w, rest, (hw.resolve_left nofun).2, hmembers, rfl⟩
    | cons v vs =>
      obtain ⟨w, ws, hw, hws, hdrop⟩ := acceptItems_cons.mp h
      have hsome : got'[k]? = some w := by
        rw [← Nat.add_zero k, ← List.getElem?_drop, hdrop]
        rfl
      have hmore : got'.drop (k + 1) = ws := by rw [← List.drop_drop, hdrop]; rfl
      have hrest {rest : List (String × Json)} : Lists members vs rest ↔
          ((members.map Prod.fst).zipIdx (k + 1)).mapM (listedAt record all got') = .ok rest :=
        ih (k + 1) (Nat.le_of_succ_le_succ hlength) (hmore.symm ▸ hws)
      simp only [lists_cons_cons, listedAt_eq_ok, hsome, hrest]
      constructor
      · rintro ⟨w', rest, hw', hmembers, rfl⟩
        obtain rfl := Except.ok.inj (hw.symm.trans hw')
        exact ⟨(m.1.name, w), rest, ⟨rfl, Or.inl rfl⟩, hmembers, rfl⟩
      · rintro ⟨⟨name, w'⟩, rest, ⟨rfl, hw'⟩, hmembers, rfl⟩
        obtain rfl := Option.some.inj (hw'.resolve_right nofun)
        exact ⟨w, rest, hw, hmembers, rfl⟩

/-- A list is a record just when it has a value for each member in turn, as long as it lasts. -/
theorem accept_record_array (members : List (Label × Shape)) :
    (Shape.record record members).accept (.array vs) = .ok j ↔
      ∃ out, j = .object out ∧ Lists members vs out := by
  rw [Shape.accept, Shape.acceptWith]
  cases hitems : acceptItems false members vs with
  | error e =>
    simp only [bind, Except.bind, reduceCtorEq, false_iff, not_exists, not_and]
    intro out _ hout
    obtain ⟨ws, hws⟩ := exists_acceptItems hout
    cases hitems.symm.trans hws
  | ok ws =>
    change (completeList record (members.map Prod.fst) ws >>= _) = _ ↔ _
    by_cases hlength : vs.length ≤ members.length
    · simp only [lists_iff record (members.map Prod.fst).length 0 hlength hitems]
      change _ ↔ ∃ out, _ ∧ completeList record (members.map Prod.fst) ws = .ok out
      cases completeList record (members.map Prod.fst) ws with
      | error e => simp [bind, Except.bind]
      | ok out => simp [bind, Except.bind, Nat.not_lt.mpr hlength, eq_comm]
    · have hnone : ¬ ∃ out, j = .object out ∧ Lists members vs out := by
        rintro ⟨out, -, hout⟩
        exact hlength hout.length_le
      cases completeList record (members.map Prod.fst) ws with
      | error e => simpa [bind, Except.bind] using hnone
      | ok out => simpa [bind, Except.bind, Nat.lt_of_not_le hlength] using hnone

theorem exists_of_accept_record (h : (Shape.record record members).accept v = .ok j) :
    (∃ fields, v = .object fields) ∨ ∃ vs, v = .array vs := by
  cases v with
  | object fields => exact Or.inl ⟨fields, rfl⟩
  | array vs => exact Or.inr ⟨vs, rfl⟩
  | _ => cases h

/-! ### Members of objects and of lists -/

/-- The values that are written for a member: in an object those under its name, and in a list the item at its
place. -/
def valuesAt (v : Json) (name : String) (place : Nat) : List Json :=
  match v with
  | .object fields => valuesOf name fields
  | .array items => (items.drop place).take 1
  | _ => []

/-- An object, or a list that is not longer than so many members. -/
def IsRecord (v : Json) (members : Nat) : Prop :=
  match v with
  | .object _ => True
  | .array items => items.length ≤ members
  | _ => False

/-- The members that a record takes from a value, the first of them at some place. -/
def FillsAt (place : Nat) (members : List (Label × Shape)) (v : Json) (out : List (String × Json)) : Prop :=
  List.Forall₂ (fun m f ↦ f.1 = m.1.1.name ∧ m.1.1.Takes m.1.2.accept (v.valuesAt m.1.1.name m.2) f.2)
    (members.zipIdx place) out

variable {place : Nat}

theorem fillsAt_nil : FillsAt place [] v out ↔ out = [] :=
  List.forall₂_nil_left_iff

theorem fillsAt_cons {m : Label × Shape} : FillsAt place (m :: members) v out ↔
    ∃ w rest, m.1.Takes m.2.accept (v.valuesAt m.1.name place) w ∧
      FillsAt (place + 1) members v rest ∧ out = (m.1.name, w) :: rest := by
  rw [FillsAt, List.zipIdx_cons, List.forall₂_cons_left_iff]
  constructor
  · rintro ⟨⟨name, w⟩, rest, ⟨rfl, hw⟩, hrest, rfl⟩
    exact ⟨w, rest, hw, hrest, rfl⟩
  · rintro ⟨w, rest, hw, hrest, rfl⟩
    exact ⟨_, rest, ⟨rfl, hw⟩, hrest, rfl⟩

theorem fillsAt_object : FillsAt place members (.object fields) out ↔ Fills false members fields out := by
  induction members generalizing place out with
  | nil => rw [fillsAt_nil, fills_nil]
  | cons m members ih =>
    rw [fillsAt_cons, fills_cons]
    simp only [ih]
    rfl

theorem Label.takes_nil (h : l.absence ≠ .isNull) : l.Takes read [] w ↔ l.absence = .means w := by
  constructor
  · intro hw
    cases hw with
    | missing hw =>
      cases habsence : l.absence with
      | refused => simp [complete?, habsence] at hw
      | isNull => exact (h habsence).elim
      | means w' => simpa [complete?, habsence] using hw
  · exact fun hw ↦ .missing (by simp [complete?, hw])

theorem Label.takes_singleton : l.Takes read [v] w ↔ read v = .ok w :=
  ⟨fun h ↦ by cases h; assumption, .found⟩

theorem fillsAt_array (hlisted : ∀ m ∈ members, m.1.absence ≠ .isNull)
    (hlength : vs.length ≤ place + members.length) :
    FillsAt place members (.array vs) out ↔ Lists members (vs.drop place) out := by
  induction members generalizing place out with
  | nil =>
    rw [fillsAt_nil, lists_nil, List.drop_eq_nil_iff]
    exact (and_iff_right hlength).symm
  | cons m members ih =>
    have hm : m.1.absence ≠ .isNull := hlisted m List.mem_cons_self
    have hrest {rest : List (String × Json)} : FillsAt (place + 1) members (.array vs) rest ↔
        Lists members (vs.drop (place + 1)) rest :=
      ih (fun m' hm' ↦ hlisted m' (List.mem_cons_of_mem _ hm')) (by rwa [Nat.add_right_comm, Nat.add_assoc])
    rw [fillsAt_cons]
    simp only [hrest, valuesAt, ← List.drop_drop]
    cases vs.drop place with
    | nil =>
      rw [lists_cons_nil]
      simp only [List.take_nil, List.drop_nil, Label.takes_nil hm]
    | cons v vs =>
      rw [lists_cons_cons]
      simp only [List.take_succ_cons, List.take_zero, List.drop_succ_cons, List.drop_zero,
        Label.takes_singleton]

/-- An object or a list is a record just when its members are. A member that is `null` where an object lacks it
cannot be left out of a list, so there is none of these here. -/
theorem accept_record (hmembers : Distinct members) (hlisted : ∀ m ∈ members, m.1.absence ≠ .isNull) :
    (Shape.record record members).accept v = .ok j ↔
      v.IsRecord members.length ∧ ∃ out, j = .object out ∧ FillsAt 0 members v out := by
  cases v with
  | object fields =>
    refine (accept_record_object hmembers).trans ?_
    simp only [IsRecord, true_and, fillsAt_object]
  | array vs =>
    rw [accept_record_array, IsRecord]
    constructor
    · rintro ⟨out, rfl, hout⟩
      exact ⟨hout.length_le, out, rfl, (fillsAt_array hlisted (by simpa using hout.length_le)).mpr hout⟩
    · rintro ⟨hlength, out, rfl, hout⟩
      exact ⟨out, rfl, (fillsAt_array hlisted (by simpa using hlength)).mp hout⟩
  | _ => simp [Shape.accept, Shape.acceptWith, IsRecord]

theorem fillsAt_needed : FillsAt place (needed name shape :: members) v out ↔
    ∃ u w rest, v.valuesAt name place = [u] ∧ shape.accept u = .ok w ∧
      FillsAt (place + 1) members v rest ∧ out = (name, w) :: rest := by
  rw [fillsAt_cons]
  constructor
  · rintro ⟨w, rest, hw, hrest, rfl⟩
    obtain ⟨u, hu, hread⟩ := takes_needed.mp hw
    exact ⟨u, w, rest, hu, hread, hrest, rfl⟩
  · rintro ⟨u, w, rest, hu, hread, hrest, rfl⟩
    exact ⟨w, rest, takes_needed.mpr ⟨u, hu, hread⟩, hrest, rfl⟩

/-! ### Depth -/

theorem depth_lt_of_mem {items : List Json} (h : v ∈ items) : v.depth < (array items).depth := by
  rw [depth, Nat.lt_succ_iff]
  induction items with
  | nil => cases h
  | cons x items ih =>
    rw [depthItems]
    rcases List.mem_cons.mp h with rfl | h
    · exact Nat.le_max_left _ _
    · exact Nat.le_trans (ih h) (Nat.le_max_right _ _)

theorem depth_lt_of_mem_fields {name : String} {fields : List (String × Json)} (h : (name, v) ∈ fields) :
    v.depth < (object fields).depth := by
  rw [depth, Nat.lt_succ_iff]
  induction fields with
  | nil => cases h
  | cons f fields ih =>
    obtain ⟨k, x⟩ := f
    rw [depthFields]
    rcases List.mem_cons.mp h with heq | h
    · obtain ⟨rfl, rfl⟩ := Prod.mk.inj heq
      exact Nat.le_max_left _ _
    · exact Nat.le_trans (ih h) (Nat.le_max_right _ _)

theorem IsRecord.depth_pos {members : Nat} (h : v.IsRecord members) : 0 < v.depth := by
  cases v with
  | object fields => exact Nat.succ_pos _
  | array items => exact Nat.succ_pos _
  | _ => cases h

/-- What is written in a value is not as deep as the value. -/
theorem depth_lt_of_mem_valuesAt {name : String} {place : Nat} (h : w ∈ v.valuesAt name place) :
    w.depth < v.depth := by
  cases v with
  | object fields =>
    obtain ⟨⟨k, _⟩, hf, rfl⟩ := List.mem_map.mp h
    exact depth_lt_of_mem_fields (List.mem_of_mem_filter hf)
  | array items => exact depth_lt_of_mem (List.mem_of_mem_drop (List.mem_of_mem_take h))
  | _ => cases h

/-! ### Members with plain values -/

theorem acceptWith_text : Shape.text.acceptWith long v = .ok w ↔ ∃ s, v = .string s ∧ w = .string s := by
  cases v <;> simp [Shape.acceptWith, eq_comm]

theorem accept_list : (Shape.list shape).accept v = .ok j ↔ ∃ items ws,
    v = .array items ∧ List.Forall₂ (fun v w ↦ shape.accept v = .ok w) items ws ∧ j = .array ws := by
  cases v with
  | array items =>
    rw [Shape.accept, Shape.acceptWith]
    simp only [array.injEq, exists_eq_left', exists_and_left, ← mapM_eq_ok_iff, Shape.accept]
    cases items.mapM (shape.acceptWith false) <;> simp [Except.map, eq_comm]
  | _ => simp [Shape.accept, Shape.acceptWith]

theorem acceptWith_natural {bits : Nat} : (Shape.natural bits).acceptWith long v = .ok w ↔
    ∃ n < wordValues bits, v = .nat n ∧ w = .nat n := by
  rw [Shape.acceptWith]
  constructor
  · intro h
    cases v <;> simp only [acceptInt] at h <;> try cases h
    rename_i i
    split at h
    · rename_i hi
      cases h
      obtain ⟨n, rfl⟩ := Int.eq_ofNat_of_zero_le hi.1
      exact ⟨n, by omega, rfl, rfl⟩
    · cases h
  · rintro ⟨n, hn, rfl, rfl⟩
    simp only [acceptInt, nat]
    rw [if_pos ⟨by omega, by omega⟩]

/-- Members that are strings. -/
def textMembers (names : List String) : List (Label × Shape) :=
  names.map fun name ↦ needed name .text

theorem distinct_textMembers {names : List String} (h : names.Nodup) : Distinct (textMembers names) where
  nodup := by simpa [textMembers, needed, Function.comp_def] using h
  plain := by simp [textMembers, needed]

/-- Strings under their names. -/
def namedTexts (texts : List (String × String)) : List (String × Json) :=
  texts.map fun t ↦ (t.1, .string t.2)

/-- Each name has its string in an object. -/
def HasTexts (texts : List (String × String)) (fields : List (String × Json)) : Prop :=
  ∀ t ∈ texts, valuesOf t.1 fields = [.string t.2]

/-- Members that are left out do not matter to strings under other names. -/
theorem hasTexts_filter {texts : List (String × String)} {p : String × Json → Bool}
    (h : ∀ t ∈ texts, ∀ v, p (t.1, v) = true) : HasTexts texts (fields.filter p) ↔ HasTexts texts fields :=
  forall₂_congr fun t ht ↦ by rw [valuesOf_filter (h t ht)]

theorem fills_textMembers {names : List String} : Fills long (textMembers names) fields out ↔
    ∃ texts, texts.map Prod.fst = names ∧ HasTexts texts fields ∧ out = namedTexts texts := by
  induction names generalizing out with
  | nil => simp [textMembers, fills_nil, HasTexts, namedTexts]
  | cons name names ih =>
    rw [textMembers, List.map_cons, ← textMembers, fills_needed]
    simp only [ih]
    constructor
    · rintro ⟨_, _, _, hv, hread, ⟨texts, rfl, htexts, rfl⟩, rfl⟩
      obtain ⟨s, rfl, rfl⟩ := acceptWith_text.mp hread
      exact ⟨(name, s) :: texts, rfl, List.forall_mem_cons.mpr ⟨hv, htexts⟩, rfl⟩
    · rintro ⟨texts, hnames, htexts, rfl⟩
      obtain ⟨⟨_, s⟩, texts, rfl, rfl, rfl⟩ := List.map_eq_cons_iff.mp hnames
      obtain ⟨hs, hrest⟩ := List.forall_mem_cons.mp htexts
      exact ⟨_, _, _, hs, acceptWith_text.mpr ⟨s, rfl, rfl⟩, ⟨texts, rfl, hrest, rfl⟩, rfl⟩

theorem lists_textMembers {names : List String} : Lists (textMembers names) vs out ↔
    ∃ texts, texts.map Prod.fst = names ∧ vs = texts.map (fun t ↦ .string t.2) ∧ out = namedTexts texts := by
  induction names generalizing vs out with
  | nil => simp [textMembers, lists_nil, namedTexts]
  | cons name names ih =>
    rw [textMembers, List.map_cons, ← textMembers]
    constructor
    · intro h
      cases h with
      | item hv hrest =>
        obtain ⟨s, rfl, rfl⟩ := acceptWith_text.mp hv
        obtain ⟨texts, rfl, rfl, rfl⟩ := ih.mp hrest
        exact ⟨(name, s) :: texts, rfl, rfl, rfl⟩
      | missing h => cases h
    · rintro ⟨texts, hnames, rfl, rfl⟩
      obtain ⟨⟨_, s⟩, texts, rfl, rfl, rfl⟩ := List.map_eq_cons_iff.mp hnames
      exact .item (acceptWith_text.mpr ⟨s, rfl, rfl⟩) (ih.mpr ⟨texts, rfl, rfl, rfl⟩)

/-- The written forms of strings under names: an object in which each name has its string, and the list of
the strings. -/
inductive Spells (texts : List (String × String)) : Json → Prop
  | object {fields : List (String × Json)} (h : HasTexts texts fields) : Spells texts (.object fields)
  | list : Spells texts (.array (texts.map fun t ↦ .string t.2))

/-- A record of strings. -/
theorem accept_textMembers (names : List String) (hnames : names.Nodup) :
    (Shape.record record (textMembers names)).accept v = .ok j ↔
      ∃ texts, texts.map Prod.fst = names ∧ Spells texts v ∧ j = .object (namedTexts texts) := by
  constructor
  · intro h
    rcases exists_of_accept_record h with ⟨fields, rfl⟩ | ⟨vs, rfl⟩
    · obtain ⟨out, rfl, hout⟩ := (accept_record_object (distinct_textMembers hnames)).mp h
      obtain ⟨texts, hnames, htexts, rfl⟩ := fills_textMembers.mp hout
      exact ⟨texts, hnames, .object htexts, rfl⟩
    · obtain ⟨out, rfl, hout⟩ := (accept_record_array _).mp h
      obtain ⟨texts, hnames, rfl, rfl⟩ := lists_textMembers.mp hout
      exact ⟨texts, hnames, .list, rfl⟩
  · rintro ⟨texts, htexts, hv, rfl⟩
    cases hv with
    | object h =>
      exact (accept_record_object (distinct_textMembers hnames)).mpr
        ⟨_, rfl, fills_textMembers.mpr ⟨texts, htexts, h, rfl⟩⟩
    | list => exact (accept_record_array _).mpr ⟨_, rfl, lists_textMembers.mpr ⟨texts, htexts, rfl, rfl⟩⟩

end CodeNav.Json
