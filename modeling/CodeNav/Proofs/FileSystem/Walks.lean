import CodeNav.FileSystem.Basic
import CodeNav.Proofs.Text.Split
import Mathlib.Data.List.Infix

/-!
# Ways in a file system

What stands at a place after a change is what was put there, and what stood at the other places before. A
walk that ends in a directory only passes directories and links, so it ends in the same directory after
changes that keep these; and the entries in this directory are found by one step more.

## Main definitions

* `FileSystem.IsFree`, `FileSystem.IsClear`: places at which nothing but a file may stand
* `FileSystem.Holds`, `FileSystem.Keeps`: directories and links stay where they are
* `FileSystem.Arrives`: the steps of a walk that ends in a directory

## Main statements

* `FileSystem.entry?_put`, `FileSystem.entry?_touch`, `FileSystem.entry?_eraseTree`: what stands where
* `FileSystem.walkFrom_of_holds`: walks to directories stay the same
* `FileSystem.Arrives.walkFrom_append_down`: an entry in a directory
* `FileSystem.makeDirs_of_isDir`: a directory that is there is made without a change
-/

namespace CodeNav.FileSystem

variable {fs fs' fs'' : FileSystem} {place q folder here : Place} {e old : Entry} {name : List Char}
  {entries : List (Place × Entry)} {follow : Bool} {fuel links : Nat} {way : List Step}

/-! ### Path names that end in names -/

/-- What follows a slash adds its steps. -/
theorem stepsOf_append_slash (p q : List Char) : stepsOf (p ++ '/' :: q) = stepsOf p ++ stepsOf q := by
  simp only [stepsOf, Text.splitOn_append_cons, List.map_append]

/-- A path name that leads anywhere else is not empty. -/
theorem isEmpty_eq_false_of_mem {p : Path} {step : Step} (h : step ∈ stepsOf p.text.toList) (hne : step ≠ .stay) :
    p.text.isEmpty = false := by
  cases hempty : p.text.isEmpty with
  | false => rfl
  | true =>
    have hsteps : stepsOf p.text.toList = [.stay] := by rw [String.isEmpty_iff.mp hempty]; rfl
    exact absurd (List.mem_singleton.mp (hsteps ▸ h)) hne

/-- A path name that ends in a name is not empty. -/
theorem isEmpty_eq_false {p : Path} {way : List Step} {name : List Char}
    (hp : stepsOf p.text.toList = way ++ [.down name]) : p.text.isEmpty = false :=
  isEmpty_eq_false_of_mem (hp ▸ List.mem_append_right way (List.mem_singleton_self (Step.down name))) (by simp)

/-- A path name that ends in a name does not end in a slash. -/
theorem getLast?_ne_slash {p : Path} {way : List Step} {name : List Char}
    (hp : stepsOf p.text.toList = way ++ [.down name]) : p.text.toList.getLast? ≠ some '/' := by
  intro hlast
  obtain ⟨front, hfront⟩ := List.getLast?_eq_some_iff.mp hlast
  have hsteps : stepsOf p.text.toList = stepsOf front ++ [.stay] := by
    rw [hfront, stepsOf_append_slash]
    rfl
  cases List.append_inj_right' (hp.symm.trans hsteps) rfl

theorem lastStep?_of_ne_slash {p : Path} (h : p.text.toList.getLast? ≠ some '/') :
    lastStep? p = (stepsOf p.text.toList).getLast? := by
  have hslash : p.text.toList.reverse.dropWhile (· = '/') = p.text.toList.reverse := by
    cases hback : p.text.toList.reverse with
    | nil => rfl
    | cons c back =>
      have hc : c ≠ '/' := by
        rintro rfl
        exact h (by rw [← List.head?_reverse, hback]; rfl)
      exact List.dropWhile_cons_of_neg (by simpa using hc)
  rw [lastStep?, hslash, List.reverse_reverse]

theorem lastStep?_of_down {p : Path} {way : List Step} {name : List Char}
    (hp : stepsOf p.text.toList = way ++ [.down name]) : lastStep? p = some (.down name) := by
  rw [lastStep?_of_ne_slash (getLast?_ne_slash hp), hp, List.getLast?_concat]

/-- Nothing keeps an entry from being put where a path leads that ends in a name. -/
theorem refusal?_of_down {p : Path} {way : List Step} {name : List Char}
    (hp : stepsOf p.text.toList = way ++ [.down name]) (found : Found) : refusal? p e found = none := by
  unfold refusal?
  rw [lastStep?_of_down hp]
  cases e <;> simp [getLast?_ne_slash hp]

/-- A file is not put where a path leads to nothing and says that a directory is there. -/
theorem refusal?_of_stays {p : Path} {way : List Step} {k : Nat}
    (hp : stepsOf p.text.toList = way ++ List.replicate (k + 1) .stay) (bytes : ByteArray) (runnable : Bool) :
    ∃ c, refusal? p (.file bytes runnable) (.absent folder name) = some c := by
  by_cases hslash : p.text.toList.getLast? = some '/'
  · unfold refusal?
    split <;> simp_all
  · have hlast : lastStep? p = some .stay := by
      rw [lastStep?_of_ne_slash hslash, hp, List.replicate_succ', ← List.append_assoc, List.getLast?_concat]
    exact ⟨.notFound, by simp [refusal?, hlast]⟩

/-! ### Entries -/

@[simp]
theorem go_putEntry : entry?.go q (putEntry place e entries) =
    if q = place then some e else entry?.go q entries := by
  induction entries with
  | nil => simp [putEntry, entry?.go, eq_comm]
  | cons x rest ih =>
    obtain ⟨p, old⟩ := x
    by_cases hp : p = place
    · subst hp
      by_cases hq : p = q <;> simp [putEntry, entry?.go, hq, Ne.symm]
    · by_cases hq : p = q
      · subst hq
        simp [putEntry, entry?.go, hp]
      · simp [putEntry, entry?.go, hp, hq, ih]

theorem entry?_put (h : place ≠ []) :
    entry? (fs.put place e) q = if q = place then some e else fs.entry? q := by
  by_cases hq : q = []
  · subst hq
    simp [ entry?, Ne.symm h]
  · simp [ entry?, hq, put]

theorem entry?_touch : entry? (fs.touch place) q =
    if q = place ∧ place ≠ [] ∧ fs.isDirAt place then some (.dir usualTime) else fs.entry? q := by
  rw [touch]
  split
  · rename_i h
    simp [entry?_put h.1, h]
  · rename_i h
    simp [h]

/-- What stands in a directory stays there when something else changes in it. -/
theorem entry?_touch_down (fs : FileSystem) (folder : Place) (name : List Char) :
    entry? (fs.touch folder) (folder ++ [name]) = fs.entry? (folder ++ [name]) := by
  rw [entry?_touch, if_neg]
  rintro ⟨heq, -⟩
  simpa using congrArg List.length heq

theorem go_filter (keep : Place → Bool) : entry?.go q (entries.filter fun x ↦ keep x.1) =
    if keep q then entry?.go q entries else none := by
  induction entries with
  | nil => simp [ entry?.go]
  | cons x rest ih =>
    obtain ⟨p, e⟩ := x
    by_cases hp : p = q
    · subst hp
      cases hkeep : keep p <;> simp only [hkeep, if_true] at ih <;> simp [hkeep, entry?.go, ih]
    · cases hkeep : keep p <;> simp [hkeep, entry?.go, hp, ih]

theorem eraseTree_eq (fs : FileSystem) (place : Place) : fs.eraseTree place =
    (FileSystem.mk (fs.entries.filter fun x ↦ !place.isPrefixOf x.1)).touch place.dropLast := rfl

theorem not_prefix_dropLast (h : place ≠ []) : ¬ place <+: place.dropLast := by
  intro hpre
  have hlen := hpre.length_le
  rw [List.length_dropLast] at hlen
  have := List.length_pos_iff.mpr h
  omega

theorem entry?_eraseTree (h : place ≠ []) : entry? (fs.eraseTree place) q =
    if place <+: q then none
    else if q = place.dropLast ∧ q ≠ [] ∧ fs.isDirAt q then some (.dir usualTime) else fs.entry? q := by
  have hall (q : Place) : entry? (FileSystem.mk (fs.entries.filter fun x ↦ !place.isPrefixOf x.1)) q =
      if place <+: q then none else fs.entry? q := by
    by_cases hq : q = []
    · subst hq
      simp [ entry?, h]
    · have hgo : entry?.go q (fs.entries.filter fun x ↦ !place.isPrefixOf x.1) =
          if !place.isPrefixOf q then entry?.go q fs.entries else none :=
        go_filter fun p ↦ !place.isPrefixOf p
      by_cases hpre : place <+: q
      · have hb := List.isPrefixOf_iff_prefix.mpr hpre
        simpa [ entry?, hq, hpre, hb] using hgo
      · have hb : place.isPrefixOf q = false :=
          Bool.eq_false_iff.mpr (mt List.isPrefixOf_iff_prefix.mp hpre)
        simpa [ entry?, hq, hpre, hb] using hgo
  rw [eraseTree_eq, entry?_touch, isDirAt, hall, if_neg (not_prefix_dropLast h), ← isDirAt, hall]
  by_cases hq : q = place.dropLast
  · subst hq
    simp [not_prefix_dropLast h]
  · simp [hq]

/-! ### Ways that are kept -/

/-- An entry that is no link. -/
def Entry.IsPlain (e : Entry) : Prop := ∀ target, e ≠ .link target

/-- A place at which nothing but a file may stand. -/
def IsFree (fs : FileSystem) (place : Place) : Prop :=
  ∀ e, fs.entry? place = some e → ∃ bytes runnable, e = .file bytes runnable

/-- Directories and links stay where they are. -/
structure Holds (fs fs' : FileSystem) : Prop where
  dir : ∀ q time, fs.entry? q = some (.dir time) → ∃ time', fs'.entry? q = some (.dir time')
  link : ∀ q target, fs.entry? q = some (.link target) → fs'.entry? q = some (.link target)

theorem Holds.trans (h : fs.Holds fs') (h' : fs'.Holds fs'') : fs.Holds fs'' where
  dir q time hq := by
    obtain ⟨time', hq⟩ := h.dir q time hq
    exact h'.dir q time' hq
  link q target hq := h'.link q target (h.link q target hq)

/-- Directories and links stay where they are, and no walk takes longer. -/
structure Keeps (fs fs' : FileSystem) : Prop extends fs.Holds fs' where
  fuel : ∀ steps, fs'.walkFuel steps = fs.walkFuel steps

theorem Keeps.trans (h : fs.Keeps fs') (h' : fs'.Keeps fs'') : fs.Keeps fs'' where
  toHolds := h.toHolds.trans h'.toHolds
  fuel steps := (h'.fuel steps).trans (h.fuel steps)

theorem foldl_putEntry {α : Type} {f : α → Place × Entry → α}
    (hf : ∀ acc p e, e.IsPlain → f acc (p, e) = acc) (he : e.IsPlain)
    (hold : ∀ old, entry?.go place entries = some old → old.IsPlain) (acc : α) :
    (putEntry place e entries).foldl f acc = entries.foldl f acc := by
  induction entries generalizing acc with
  | nil => simp [putEntry, hf _ _ _ he]
  | cons x rest ih =>
    obtain ⟨p, old⟩ := x
    by_cases hp : p = place
    · have hplain := hold old (by simp [ entry?.go, hp])
      simp [putEntry, hp, hf _ _ _ he, hf _ _ _ hplain]
    · simp only [putEntry, hp, if_false, List.foldl_cons]
      exact ih (fun old hold' ↦ hold old (by simpa [ entry?.go, hp] using hold')) _

theorem foldl_filter_of_plain {α : Type} {f : α → Place × Entry → α}
    (hf : ∀ acc p e, e.IsPlain → f acc (p, e) = acc) {keep : Place × Entry → Bool}
    (hkeep : ∀ x ∈ entries, keep x = false → x.2.IsPlain) (acc : α) :
    (entries.filter keep).foldl f acc = entries.foldl f acc := by
  induction entries generalizing acc with
  | nil => rfl
  | cons x rest ih =>
    have hrest := ih fun y hy ↦ hkeep y (List.mem_cons_of_mem _ hy)
    cases hx : keep x with
    | true => simp [hx, hrest]
    | false =>
      obtain ⟨p, e⟩ := x
      simp [hx, hrest, hf _ _ _ (hkeep _ List.mem_cons_self hx)]

theorem walkFuel_put (he : e.IsPlain) (hold : ∀ old, fs.entry? place = some old → old.IsPlain)
    (hplace : place ≠ []) (steps : List Step) : (fs.put place e).walkFuel steps = fs.walkFuel steps := by
  simp only [walkFuel, put]
  rw [foldl_putEntry _ he]
  · simpa [ entry?, hplace] using hold
  · intro acc p e he
    cases e with
    | link target => exact absurd rfl (he target)
    | dir | file => rfl

theorem keeps_put {bytes : ByteArray} {runnable : Bool} (hfree : fs.IsFree place) (hplace : place ≠ []) :
    fs.Keeps (fs.put place (.file bytes runnable)) where
  dir q time hq := by
    rw [entry?_put hplace]
    by_cases heq : q = place
    · obtain ⟨_, _, hfile⟩ := hfree _ (heq ▸ hq)
      cases hfile
    · exact ⟨time, by rwa [if_neg heq]⟩
  link q target hq := by
    rw [entry?_put hplace]
    by_cases heq : q = place
    · obtain ⟨_, _, hfile⟩ := hfree _ (heq ▸ hq)
      cases hfile
    · rwa [if_neg heq]
  fuel := by
    refine walkFuel_put (fun target ↦ by simp) (fun old hold ↦ ?_) hplace
    obtain ⟨bytes, runnable, rfl⟩ := hfree old hold
    exact fun target ↦ by simp

theorem keeps_touch : fs.Keeps (fs.touch place) where
  dir q time hq := by
    rw [entry?_touch]
    split
    · exact ⟨_, rfl⟩
    · exact ⟨time, hq⟩
  link q target hq := by
    rw [entry?_touch, if_neg]
    · exact hq
    · rintro ⟨rfl, -, hdir⟩
      simp [isDirAt, hq] at hdir
  fuel steps := by
    rw [touch]
    split
    · rename_i h
      refine walkFuel_put (fun target ↦ by simp) (fun old hold ↦ ?_) h.1 steps
      have hdir := h.2
      cases old with
      | link target => simp [isDirAt, hold] at hdir
      | dir | file => exact fun target ↦ by simp
    · rfl

/-- Nothing but a file may stand at a place, and nothing below it. -/
def IsClear (fs : FileSystem) (place : Place) : Prop :=
  ∀ x ∈ fs.entries, place <+: x.1 → x.1 = place ∧ ∃ bytes runnable, x.2 = .file bytes runnable

theorem mem_of_go (h : entry?.go q entries = some e) : (q, e) ∈ entries := by
  induction entries with
  | nil => cases h
  | cons x rest ih =>
    obtain ⟨p, old⟩ := x
    by_cases hp : p = q
    · subst hp
      obtain rfl : old = e := by simpa [ entry?.go] using h
      exact List.mem_cons_self
    · exact List.mem_cons_of_mem _ (ih (by simpa [ entry?.go, hp] using h))

theorem IsClear.isFile (hclear : fs.IsClear place) (hplace : place ≠ []) (hpre : place <+: q)
    (hq : fs.entry? q = some e) : q = place ∧ ∃ bytes runnable, e = .file bytes runnable := by
  have hne : q ≠ [] := by
    rintro rfl
    exact hplace (List.prefix_nil.mp hpre)
  rw [ entry?, if_neg hne] at hq
  exact hclear _ (mem_of_go hq) hpre

theorem IsClear.isFree (hclear : fs.IsClear place) (hplace : place ≠ []) : fs.IsFree place :=
  fun _ he ↦ (hclear.isFile hplace (List.prefix_refl _) he).2

theorem keeps_eraseTree (hclear : fs.IsClear place) (hplace : place ≠ []) :
    fs.Keeps (fs.eraseTree place) where
  dir q time hq := by
    rw [entry?_eraseTree hplace, if_neg]
    · split
      · exact ⟨_, rfl⟩
      · exact ⟨time, hq⟩
    · intro hpre
      obtain ⟨-, _, _, hfile⟩ := hclear.isFile hplace hpre hq
      cases hfile
  link q target hq := by
    rw [entry?_eraseTree hplace, if_neg, if_neg]
    · exact hq
    · rintro ⟨rfl, -, hdir⟩
      simp [isDirAt, hq] at hdir
    · intro hpre
      obtain ⟨-, _, _, hfile⟩ := hclear.isFile hplace hpre hq
      cases hfile
  fuel steps := by
    rw [eraseTree_eq, keeps_touch.fuel]
    simp only [walkFuel]
    rw [foldl_filter_of_plain]
    · intro acc p e he
      cases e with
      | link target => exact absurd rfl (he target)
      | dir | file => rfl
    · intro x hx hpre
      have hpre : place <+: x.1 := List.isPrefixOf_iff_prefix.mp (by simpa using hpre)
      obtain ⟨-, bytes, runnable, hfile⟩ := hclear x hx hpre
      rw [hfile]
      exact fun target ↦ by simp

/-! ### Walks to directories -/

/-- A walk that follows all links ends in a directory: it has passed only directories and links. -/
inductive Arrives (fs : FileSystem) (folder : Place) (time : Int) : Nat → Nat → Place → List Step → Prop
  | done {fuel links : Nat} (hdir : fs.entry? folder = some (.dir time)) :
      Arrives fs folder time (fuel + 1) links folder []
  | stay {fuel links : Nat} {here : Place} {t : Int} {rest : List Step}
      (hdir : fs.entry? here = some (.dir t)) (h : Arrives fs folder time fuel links here rest) :
      Arrives fs folder time (fuel + 1) links here (.stay :: rest)
  | up {fuel links : Nat} {here : Place} {t : Int} {rest : List Step}
      (hdir : fs.entry? here = some (.dir t)) (h : Arrives fs folder time fuel links here.dropLast rest) :
      Arrives fs folder time (fuel + 1) links here (.up :: rest)
  | enter {fuel links : Nat} {here : Place} {t t' : Int} {name : List Char} {rest : List Step}
      (hdir : fs.entry? here = some (.dir t)) (hnext : fs.entry? (here ++ [name]) = some (.dir t'))
      (h : Arrives fs folder time fuel links (here ++ [name]) rest) :
      Arrives fs folder time (fuel + 1) links here (.down name :: rest)
  | follow {fuel links : Nat} {here : Place} {t : Int} {name : List Char} {target : String} {rest : List Step}
      (hdir : fs.entry? here = some (.dir t)) (hlink : fs.entry? (here ++ [name]) = some (.link target))
      (h : Arrives fs folder time fuel links (if target.toList.head? = some '/' then [] else here)
        (stepsOf target.toList ++ rest)) :
      Arrives fs folder time (fuel + 1) (links + 1) here (.down name :: rest)

theorem Arrives.walkFrom_eq {time : Int} (h : fs.Arrives folder time fuel links here way) :
    fs.walkFrom true fuel links here way = .ok (.at folder (.dir time)) := by
  induction h with
  | done hdir => simp only [walkFrom, hdir]
  | stay hdir _ ih | up hdir _ ih => simpa only [walkFrom, hdir] using ih
  | enter hdir hnext _ ih => simpa only [walkFrom, hdir, hnext] using ih
  | follow hdir hlink _ ih =>
    simpa only [walkFrom, hdir, hlink, Bool.true_eq_false, and_false, if_false] using ih

theorem arrives_of_walkFrom {time : Int}
    (h : fs.walkFrom true fuel links here way = .ok (.at folder (.dir time))) :
    fs.Arrives folder time fuel links here way := by
  induction fuel generalizing links here way with
  | zero => cases h
  | succ fuel ih =>
    simp only [walkFrom] at h
    split at h
    · cases h
    · rename_i t hdir
      cases way with
      | nil =>
        cases h
        exact .done hdir
      | cons step rest =>
        cases step with
        | stay => exact .stay hdir (ih h)
        | up => exact .up hdir (ih h)
        | down name =>
          simp only [Bool.true_eq_false, and_false, if_false] at h
          split at h
          · split at h <;> cases h
          · rename_i target hlink
            cases links with
            | zero => cases h
            | succ links => exact .follow hdir hlink (ih h)
          · split at h <;> cases h
          · rename_i hnext
            exact .enter hdir hnext (ih h)
    · cases h

theorem Arrives.of_holds {time : Int} (h : fs.Arrives folder time fuel links here way)
    (hholds : fs.Holds fs') : ∃ time', fs'.Arrives folder time' fuel links here way := by
  induction h with
  | done hdir =>
    obtain ⟨time', hdir'⟩ := hholds.dir _ _ hdir
    exact ⟨time', .done hdir'⟩
  | stay hdir _ ih =>
    obtain ⟨_, hdir'⟩ := hholds.dir _ _ hdir
    obtain ⟨time', h'⟩ := ih
    exact ⟨time', .stay hdir' h'⟩
  | up hdir _ ih =>
    obtain ⟨_, hdir'⟩ := hholds.dir _ _ hdir
    obtain ⟨time', h'⟩ := ih
    exact ⟨time', .up hdir' h'⟩
  | enter hdir hnext _ ih =>
    obtain ⟨_, hdir'⟩ := hholds.dir _ _ hdir
    obtain ⟨_, hnext'⟩ := hholds.dir _ _ hnext
    obtain ⟨time', h'⟩ := ih
    exact ⟨time', .enter hdir' hnext' h'⟩
  | follow hdir hlink _ ih =>
    obtain ⟨_, hdir'⟩ := hholds.dir _ _ hdir
    obtain ⟨time', h'⟩ := ih
    exact ⟨time', .follow hdir' (hholds.link _ _ hlink) h'⟩

/-- A walk to a directory ends there also after changes that keep directories and links. -/
theorem walkFrom_of_holds (h : fs.Holds fs') {time : Int}
    (hwalk : fs.walkFrom true fuel links here way = .ok (.at folder (.dir time))) :
    ∃ time', fs'.walkFrom true fuel links here way = .ok (.at folder (.dir time')) := by
  obtain ⟨time', harrives⟩ := (arrives_of_walkFrom hwalk).of_holds h
  exact ⟨time', harrives.walkFrom_eq⟩

/-- One step more from a directory. -/
theorem Arrives.walkFrom_append_down {time : Int} (h : fs.Arrives folder time fuel links here way)
    (hfree : fs.IsFree (folder ++ [name])) :
    fs.walkFrom follow fuel links here (way ++ [.down name]) =
      .ok ((fs.entry? (folder ++ [name])).elim (.absent folder name) (.at (folder ++ [name]))) := by
  induction h with
  | done hdir =>
    simp only [List.nil_append, walkFrom, hdir]
    cases hentry : fs.entry? (folder ++ [name]) with
    | none => simp
    | some e =>
      obtain ⟨bytes, runnable, rfl⟩ := hfree e hentry
      simp
  | stay hdir _ ih | up hdir _ ih => simpa only [List.cons_append, walkFrom, hdir] using ih
  | enter hdir hnext _ ih => simpa only [List.cons_append, walkFrom, hdir, hnext] using ih
  | follow hdir hlink _ ih =>
    rw [List.cons_append]
    simpa only [walkFrom, hdir, hlink, List.append_eq_nil_iff, List.cons_ne_nil, false_and, and_false,
      if_false, List.append_assoc] using ih

/-- Where a walk to a directory ends, something stands also when the last link is not followed. -/
theorem Arrives.exists_walkFrom_false {time : Int} (h : fs.Arrives folder time fuel links here way) :
    ∃ place e, fs.walkFrom false fuel links here way = .ok (.at place e) := by
  induction h with
  | done hdir => exact ⟨folder, .dir time, by simp only [walkFrom, hdir]⟩
  | stay hdir _ ih | up hdir _ ih => simpa only [walkFrom, hdir] using ih
  | enter hdir hnext _ ih => simpa only [walkFrom, hdir, hnext] using ih
  | follow hdir hlink _ ih =>
    simp only [walkFrom, hdir, hlink]
    split
    · exact ⟨_, _, rfl⟩
    · exact ih

/-! ### Changes -/

theorem mem_putEntry {x : Place × Entry} (h : x ∈ putEntry place e entries) :
    x = (place, e) ∨ x ∈ entries := by
  induction entries with
  | nil => exact Or.inl (List.mem_singleton.mp h)
  | cons y rest ih =>
    obtain ⟨p, old⟩ := y
    by_cases hp : p = place
    · rw [putEntry, if_pos hp] at h
      rcases List.mem_cons.mp h with rfl | h
      · exact Or.inl (by rw [hp])
      · exact Or.inr (List.mem_cons_of_mem _ h)
    · rw [putEntry, if_neg hp] at h
      rcases List.mem_cons.mp h with rfl | h
      · exact Or.inr List.mem_cons_self
      · exact (ih h).imp_right (List.mem_cons_of_mem _)

theorem IsClear.put (hclear : fs.IsClear place)
    (hq : place <+: q → q = place ∧ ∃ bytes runnable, e = .file bytes runnable) :
    (fs.put q e).IsClear place := by
  intro x hx hpre
  rcases mem_putEntry hx with rfl | hx
  · exact hq hpre
  · exact hclear x hx hpre

theorem IsClear.touch (hclear : fs.IsClear place) (hq : ¬ place <+: q) : (fs.touch q).IsClear place := by
  rw [FileSystem.touch]
  split
  · exact hclear.put fun hpre ↦ absurd hpre hq
  · exact hclear

theorem IsClear.eraseTree (hclear : fs.IsClear place) (hplace : place ≠ []) :
    (fs.eraseTree place).IsClear place := by
  rw [eraseTree_eq]
  refine IsClear.touch (fun x hx hpre ↦ hclear x (List.mem_of_mem_filter hx) hpre) ?_
  exact not_prefix_dropLast hplace

theorem isDir_iff {p : Path} : fs.isDir p = true ↔ p.text.isEmpty = false ∧ ∃ place time,
    fs.walkFrom true (fs.walkFuel (stepsOf p.text.toList)) maxLinks [] (stepsOf p.text.toList) =
      .ok (.at place (.dir time)) := by
  rw [isDir, stat, walk]
  cases hempty : p.text.isEmpty with
  | true => simp
  | false =>
    simp only [Bool.false_eq_true, if_false, true_and]
    cases hwalk : fs.walkFrom true (fs.walkFuel (stepsOf p.text.toList)) maxLinks []
        (stepsOf p.text.toList) with
    | error c => simp
    | ok found =>
      cases found with
      | absent => simp
      | «at» place e => cases e <;> simp

theorem isDir_of_keeps (h : fs.Keeps fs') {p : Path} (hp : fs.isDir p = true) : fs'.isDir p = true := by
  obtain ⟨hempty, place, time, hwalk⟩ := isDir_iff.mp hp
  obtain ⟨time', hwalk'⟩ := walkFrom_of_holds h.toHolds hwalk
  exact isDir_iff.mpr ⟨hempty, place, time', by rw [h.fuel, hwalk']⟩

/-- A directory that is there is made without a change. -/
theorem makeDirsWith_of_isDir {p : Path} (h : fs.isDir p = true) (fuel : Nat) :
    fs.makeDirsWith (fuel + 1) p = .ok fs := by
  obtain ⟨hempty, place, time, hwalk⟩ := isDir_iff.mp h
  obtain ⟨there, e, hthere⟩ := (arrives_of_walkFrom hwalk).exists_walkFrom_false
  have hmake : fs.makeDir p = .error .alreadyExists := by
    rw [makeDir, walk, hempty]
    simp only [Bool.false_eq_true, if_false, hthere]
  simp only [makeDirsWith, hempty, Bool.false_eq_true, if_false, hmake, h, if_true]

theorem makeDirs_of_isDir {p : Path} (h : fs.isDir p = true) : fs.makeDirs p = .ok fs :=
  makeDirsWith_of_isDir h p.components.length

end CodeNav.FileSystem
