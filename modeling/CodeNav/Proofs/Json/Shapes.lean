import CodeNav.Json.Shape
import Mathlib.Data.List.Induction
import Mathlib.Data.List.Nodup

/-!
# Members of objects

An object that is made of members has the members that are present. A record that is read from an object
takes each of its members from the member of the same name, in the normal form that its shape has; members
with other names do not matter, and one that is there twice is refused.

## Main definitions

* `Json.collect`: what a record takes from the members of an object
* `Json.Label.complete?`: what a member of a record is, after it was looked for
* `Json.Label.Reads`: how a member is read

## Main statements

* `Json.field?_ofPresent`: the members of an object that is made of them
* `Json.lookup_collect`: what is taken from the members of an object
* `Json.lookup_complete`: the members of a record
* `Json.reads_of_accept_record`, `Json.reads_of_accept_merged`: the members of a record that is read from an
  object
-/

namespace CodeNav.Json

variable {name : String} {fields got got' out : List (String × Json)} {v : Json}

/-! ### Objects that are made of members -/

theorem lookup_foldl_insertField (fields start : List (String × Json)) :
    lookup name (fields.foldl (fun acc (k, v) ↦ insertField k v acc) start) =
      (lookup name fields.reverse).or (lookup name start) := by
  induction fields using List.reverseRecOn with
  | nil => rfl
  | append_singleton fields f ih =>
    rw [List.foldl_concat, lookup_insertField, ih, List.reverse_concat]
    by_cases hf : f.1 = name <;> simp [lookup, hf]

theorem lookup_eq_none (h : name ∉ fields.map Prod.fst) : lookup name fields = none := by
  induction fields with
  | nil => rfl
  | cons f fields ih =>
    obtain ⟨hf, hrest⟩ := not_or.mp (mt List.mem_cons.mpr h)
    simp [lookup, Ne.symm hf, ih hrest]

theorem lookup_append (fields more : List (String × Json)) :
    lookup name (fields ++ more) = (lookup name fields).or (lookup name more) := by
  induction fields with
  | nil => rfl
  | cons f fields ih =>
    by_cases hf : f.1 = name <;> simp [lookup, hf, ih]

/-- A member is found under its name, if no other has the name. -/
theorem lookup_eq_some (hnodup : (fields.map Prod.fst).Nodup) (h : (name, v) ∈ fields) :
    lookup name fields = some v := by
  induction fields with
  | nil => cases h
  | cons f fields ih =>
    rw [List.map_cons, List.nodup_cons] at hnodup
    rcases List.mem_cons.mp h with rfl | hmem
    · simp [lookup]
    · have hf : f.1 ≠ name := fun heq ↦ hnodup.1 (heq ▸ List.mem_map_of_mem hmem)
      simp [lookup, hf, ih hnodup.2 hmem]

/-- An object that is made of members has those that are present. -/
theorem field?_ofPresent {members : List (String × Option Json)} (hnodup : (members.map Prod.fst).Nodup)
    {w : Option Json} (h : (name, w) ∈ members) : (ofPresent members).field? name = w := by
  rw [ofPresent, ofFields, field?]
  generalize hpresent : List.filterMap _ members = present
  have hmem (k : String) (v : Json) : (k, v) ∈ present ↔ (k, some v) ∈ members := by
    simp only [← hpresent, List.mem_filterMap, Option.map_eq_some_iff, Prod.mk.injEq, Prod.exists]
    constructor
    · rintro ⟨k', w', hw, v', rfl, rfl, rfl⟩
      exact hw
    · exact fun hv ↦ ⟨k, some v, hv, v, rfl, rfl, rfl⟩
  have hnames : (present.map Prod.fst).Sublist (members.map Prod.fst) := by
    rw [← hpresent]
    clear hmem hpresent h hnodup
    induction members with
    | nil => exact .slnil
    | cons f members ih =>
      obtain ⟨k, w'⟩ := f
      cases w' with
      | none => exact ih.cons _
      | some v => exact ih.cons_cons _
  have hreverse : (present.reverse.map Prod.fst).Nodup := by
    rw [List.map_reverse, List.nodup_reverse]
    exact hnames.nodup hnodup
  rw [lookup_foldl_insertField]
  cases w with
  | some v =>
    rw [lookup_eq_some hreverse (List.mem_reverse.mpr ((hmem name v).mpr h))]
    rfl
  | none =>
    rw [lookup_eq_none]
    · rfl
    · intro hname
      obtain ⟨⟨k, v⟩, hv, rfl⟩ := List.mem_map.mp hname
      have hsome := (hmem k v).mp (List.mem_reverse.mp hv)
      cases List.inj_on_of_nodup_map hnodup h hsome rfl

/-! ### Records that are read from objects -/

/-- What a record takes from the members of an object. -/
def collect (long : Bool) (members : List (Label × Shape)) (fields got : List (String × Json)) :
    Except Mismatch (List (String × Json)) :=
  fields.foldlM (fun got field ↦
    match acceptMember long members field.1 field.2 with
    | none => .ok got
    | some (name, v) => addMember got name v) got

variable {long : Bool} {members : List (Label × Shape)} {read : Json → Except Mismatch Json}

theorem addMember_eq_ok {k : String} {r : Except Mismatch Json} :
    addMember got k r = .ok got' ↔ lookup k got = none ∧ ∃ v, r = .ok v ∧ got' = (k, v) :: got := by
  rw [addMember]
  split
  · rename_i hsome
    simp [Option.isSome_iff_ne_none.mp hsome]
  · rename_i hnone
    rw [Option.not_isSome_iff_eq_none] at hnone
    cases r with
    | error e => simp [Except.map]
    | ok v => simp [Except.map, hnone, eq_comm]

theorem collect_cons {f : String × Json} :
    collect long members (f :: fields) got = .ok out ↔
      (acceptMember long members f.1 f.2 = none ∧ collect long members fields got = .ok out) ∨
        ∃ k r got', acceptMember long members f.1 f.2 = some (k, r) ∧ addMember got k r = .ok got' ∧
          collect long members fields got' = .ok out := by
  rw [collect, List.foldlM_cons]
  cases hf : acceptMember long members f.1 f.2 with
  | none => simp [collect, bind, Except.bind]
  | some m =>
    obtain ⟨k, r⟩ := m
    cases hadd : addMember got k r with
    | error e => simp [hadd, bind, Except.bind]
    | ok got' => simp [hadd, collect, bind, Except.bind]

/-- What was taken stays. -/
theorem lookup_collect_of_some (h : collect long members fields got = .ok out)
    (hgot : lookup name got = some v) : lookup name out = some v := by
  induction fields generalizing got with
  | nil =>
    obtain rfl := Except.ok.inj h
    exact hgot
  | cons f fields ih =>
    rcases collect_cons.mp h with ⟨-, hrest⟩ | ⟨k, r, got', -, hadd, hrest⟩
    · exact ih hrest hgot
    · obtain ⟨hnone, w, -, rfl⟩ := addMember_eq_ok.mp hadd
      have hk : k ≠ name := by
        rintro rfl
        rw [hgot] at hnone
        cases hnone
      exact ih hrest (by simp [lookup, hk, hgot])

/-- A record takes the member of the same name, in normal form, if there is one. -/
theorem lookup_collect (hself : ∀ v, acceptMember long members name v = some (name, read v))
    (hother : ∀ key v r, acceptMember long members key v = some (name, r) → key = name)
    (h : collect long members fields got = .ok out) (hgot : lookup name got = none) :
    (lookup name fields = none ∧ lookup name out = none) ∨
      ∃ j v, lookup name fields = some j ∧ read j = .ok v ∧ lookup name out = some v := by
  induction fields generalizing got with
  | nil =>
    obtain rfl := Except.ok.inj h
    exact Or.inl ⟨rfl, hgot⟩
  | cons f fields ih =>
    obtain ⟨key, j⟩ := f
    rcases collect_cons.mp h with ⟨hnone, hrest⟩ | ⟨k, r, got', hsome, hadd, hrest⟩
    · have hkey : key ≠ name := by
        rintro rfl
        cases (hself j).symm.trans hnone
      simpa [lookup, hkey] using ih hrest hgot
    · obtain ⟨-, v, rfl, rfl⟩ := addMember_eq_ok.mp hadd
      by_cases hkey : key = name
      · subst hkey
        obtain ⟨rfl, hread⟩ := Prod.mk.inj (Option.some.inj ((hself j).symm.trans hsome))
        exact Or.inr ⟨j, v, by simp [lookup], hread, lookup_collect_of_some hrest (by simp [lookup])⟩
      · have hk : k ≠ name := by
          rintro rfl
          exact hkey (hother _ _ _ hsome)
        simpa [lookup, hkey] using ih hrest (by simp [lookup, hk, hgot])

/-- What a member of a record is, after it was looked for. -/
def Label.complete? (l : Label) (found : Option Json) : Option Json :=
  match found, l.absence with
  | some v, _ => some v
  | none, .refused => none
  | none, .isNull => some .null
  | none, .means v => some v

theorem complete_cons {l : Label} {labels : List Label} :
    complete (l :: labels) got = .ok out ↔ ∃ v rest, l.complete? (lookup l.name got) = some v ∧
      complete labels got = .ok rest ∧ out = (l.name, v) :: rest := by
  rw [complete, List.mapM_cons, ← complete]
  rcases hfound : lookup l.name got with _ | v <;> rcases habsence : l.absence with _ | _ | w <;>
    rcases hrest : complete labels got with e | rest <;>
    simp [Label.complete?, habsence, bind, Except.bind, pure, Except.pure, eq_comm]

/-- The members of a record are those that were found, or what holds for them when they are missing. -/
theorem lookup_complete {labels : List Label} {l : Label} (h : complete labels got = .ok out)
    (hl : l ∈ labels) (hnodup : (labels.map Label.name).Nodup) :
    lookup l.name out = l.complete? (lookup l.name got) := by
  induction labels generalizing out with
  | nil => cases hl
  | cons l' labels ih =>
    obtain ⟨v, rest, hv, hrest, rfl⟩ := complete_cons.mp h
    rw [List.map_cons, List.nodup_cons] at hnodup
    rcases List.mem_cons.mp hl with rfl | hl
    · rw [hv]
      simp [lookup]
    · have hname : l'.name ≠ l.name := fun heq ↦ hnodup.1 (heq ▸ List.mem_map_of_mem hl)
      rw [lookup, if_neg hname]
      exact ih hrest hl hnodup.2

theorem exists_complete {labels : List Label} {l : Label} (h : complete labels got = .ok out)
    (hl : l ∈ labels) : ∃ v, l.complete? (lookup l.name got) = some v := by
  induction labels generalizing out with
  | nil => cases hl
  | cons l' labels ih =>
    obtain ⟨v, rest, hv, hrest, -⟩ := complete_cons.mp h
    rcases List.mem_cons.mp hl with rfl | hl
    · exact ⟨v, hv⟩
    · exact ih hrest hl

/-- Members with names of their own, and without other spellings. -/
structure Distinct (members : List (Label × Shape)) : Prop where
  nodup : ((members.map Prod.fst).map Label.name).Nodup
  plain : ∀ m ∈ members, m.1.alias? = none

theorem acceptMember_of_mem (hmembers : Distinct members) {l : Label} {shape : Shape}
    (h : (l, shape) ∈ members) (v : Json) :
    acceptMember long members l.name v = some (l.name, shape.acceptWith long v) := by
  induction members with
  | nil => cases h
  | cons m members ih =>
    obtain ⟨hnodup, hplain⟩ := hmembers
    rw [List.map_cons, List.map_cons, List.nodup_cons] at hnodup
    rcases List.mem_cons.mp h with rfl | h
    · simp [acceptMember, Label.isKey]
    · have hname : m.1.name ≠ l.name := fun heq ↦
        hnodup.1 (heq ▸ List.mem_map_of_mem (List.mem_map_of_mem h))
      have hkey : m.1.isKey l.name = false := by
        simp [Label.isKey, hplain m List.mem_cons_self, Ne.symm hname]
      rw [acceptMember, hkey]
      exact ih ⟨hnodup.2, fun m' hm' ↦ hplain m' (List.mem_cons_of_mem _ hm')⟩ h

theorem eq_of_acceptMember (hplain : ∀ m ∈ members, m.1.alias? = none) {key : String}
    {r : Except Mismatch Json} (h : acceptMember long members key v = some (name, r)) : key = name := by
  induction members with
  | nil => cases h
  | cons m members ih =>
    rw [acceptMember] at h
    split at h
    · rename_i hkey
      obtain ⟨rfl, -⟩ := Prod.mk.inj (Option.some.inj h)
      simpa [Label.isKey, hplain m List.mem_cons_self] using hkey
    · exact ih (fun m' hm' ↦ hplain m' (List.mem_cons_of_mem _ hm')) h

/-- How a member of a record is read from a value that may be there. -/
inductive Label.Reads (l : Label) (read : Json → Except Mismatch Json) :
    Option Json → Option Json → Prop
  | missing (w : Json) (h : l.complete? none = some w) : Reads l read none (some w)
  | found {v w : Json} (h : read v = .ok w) : Reads l read (some v) (some w)

theorem Label.Reads.exists_eq {l : Label} {found taken : Option Json} (h : l.Reads read found taken) :
    ∃ w, taken = some w := by
  cases h with
  | missing w => exact ⟨w, rfl⟩
  | @found _ w => exact ⟨w, rfl⟩

/-- A record takes each of its members from the member of the same name. -/
theorem reads_of_complete (hmembers : Distinct members) {l : Label} {shape : Shape}
    (hl : (l, shape) ∈ members) (hgot : collect long members fields [] = .ok got)
    (hout : complete (members.map Prod.fst) got = .ok out) :
    l.Reads (shape.acceptWith long) (lookup l.name fields) (lookup l.name out) := by
  have hmem : l ∈ members.map Prod.fst := List.mem_map_of_mem hl
  have hlookup := lookup_complete hout hmem hmembers.nodup
  rcases lookup_collect (acceptMember_of_mem hmembers hl)
    (fun _ _ _ ↦ eq_of_acceptMember hmembers.plain) hgot rfl with ⟨hnone, hgot⟩ | ⟨v, w, hv, hread, hgot⟩
  · rw [hnone, hlookup, hgot]
    obtain ⟨w, hw⟩ := exists_complete hout hmem
    rw [hgot] at hw
    rw [hw]
    exact .missing w hw
  · rw [hv, hlookup, hgot]
    exact .found hread

/-- A record that is read from an object. -/
theorem reads_of_accept_record {record : String} {j : Json} (hmembers : Distinct members)
    (h : (Shape.record record members).acceptWith long (.object fields) = .ok j) {l : Label}
    {shape : Shape} (hl : (l, shape) ∈ members) :
    l.Reads (shape.acceptWith long) (lookup l.name fields) (j.field? l.name) := by
  rw [Shape.acceptWith] at h
  change (collect long members fields [] >>= _) = _ at h
  cases hgot : collect long members fields [] with
  | error e => simp [hgot, bind, Except.bind] at h
  | ok got =>
    cases hout : complete (members.map Prod.fst) got with
    | error e => simp [hgot, hout, bind, Except.bind, Except.map] at h
    | ok out =>
      obtain rfl : .object out = j := by simpa [hgot, hout, bind, Except.bind, Except.map] using h
      exact reads_of_complete hmembers hl hgot hout

/-- A record that is read from an object together with another one. -/
theorem reads_of_accept_merged {record : String} {rest : Shape} {j info : Json}
    (hmembers : Distinct members)
    (h : (Shape.merged record members rest).acceptWith long info = .ok j) {l : Label} {shape : Shape}
    (hl : (l, shape) ∈ members) : l.Reads (shape.acceptWith long) (info.field? l.name) (j.field? l.name) := by
  cases info with
  | object fields =>
    rw [Shape.acceptWith] at h
    change (collect long members fields [] >>= _) = _ at h
    cases hgot : collect long members fields [] with
    | error e => simp [hgot, bind, Except.bind] at h
    | ok got =>
      cases hout : complete (members.map Prod.fst) got with
      | error e => simp [hgot, hout, bind, Except.bind] at h
      | ok out =>
        have hreads := reads_of_complete hmembers hl hgot hout
        obtain ⟨more, rfl⟩ : ∃ more, j = .object (out ++ more) := by
          simp only [hgot, hout, bind, Except.bind] at h
          split at h
          · cases h
          · split at h
            · exact ⟨_, (Except.ok.inj h).symm⟩
            · exact ⟨[], by simpa using (Except.ok.inj h).symm⟩
        obtain ⟨w, hw⟩ := hreads.exists_eq
        change l.Reads _ (lookup l.name fields) (lookup l.name (out ++ more))
        rw [lookup_append, hw, Option.some_or, ← hw]
        exact hreads
  | _ => simp [Shape.acceptWith] at h

end CodeNav.Json
