import CodeNav.Proofs.FileSystem.Plots

/-!
# Plots beside each other

Plots are *beside each other* when none of them is in another one, and the ways to their folders keep off all
of them. Whoever *works* on a plot changes what is in it, and makes folders above it; for the other plots
everything stays as it was, but folders above them may have been made. File systems are *twins* of a plot when
it is the same in both, and there may only be more folders above it in the first one; then whatever is done on
the plot comes to the same in both, and they are twins afterwards.

## Main definitions

* `FileSystem.Plot.contents`: what is in a plot
* `FileSystem.Plot.Works`: what work on a plot may do
* `FileSystem.Plots`, `FileSystem.Plots.Sound`: plots beside each other
* `FileSystem.Plots.Twins`: file systems in which a plot is the same

## Main statements

* `FileSystem.Plots.Sound.works`, `FileSystem.Plots.Twins.beside`: what work on other plots leaves alone
* `FileSystem.Plots.Twins.present_eq`, `FileSystem.Plots.Twins.dirTime?_eq`,
  `FileSystem.Plots.Twins.removeTree`, `FileSystem.Plots.Twins.makeAbove`, `FileSystem.Plots.Twins.change`:
  what is done on the plot in twins
-/

namespace CodeNav.FileSystem

variable {fs fs' f f' g g' : FileSystem} {q : Place} {e : Entry} {bytes : ByteArray} {runnable : Bool}
  {place : Place} {cause : Cause} {p : Path}

/-- What is at a place and below it, seen from the place. -/
abbrev Contents := Place → Option Entry

/-! ### Contents of another file system -/

/-- The file system with what another one has at a place and below it. -/
def transplant (fs : FileSystem) (place : Place) (other : FileSystem) : FileSystem :=
  ⟨other.entries.filter (fun x ↦ place.isPrefixOf x.1) ++
    fs.entries.filter fun x ↦ !place.isPrefixOf x.1⟩

theorem go_append (l l' : List (Place × Entry)) :
    entry?.go q (l ++ l') = ( entry?.go q l).or ( entry?.go q l') := by
  induction l with
  | nil => simp [ entry?.go]
  | cons x rest ih =>
    obtain ⟨p, e⟩ := x
    by_cases hp : p = q <;> simp [ entry?.go, hp, ih]

theorem entry?_transplant (h : place ≠ []) : entry? (fs.transplant place f) q =
    if place <+: q then f.entry? q else fs.entry? q := by
  by_cases hq : q = []
  · subst hq
    simp [ entry?, h]
  · have hkeep : entry?.go q (f.entries.filter fun x ↦ place.isPrefixOf x.1) =
        if place.isPrefixOf q then entry?.go q f.entries else none :=
      go_filter fun p ↦ place.isPrefixOf p
    have hdrop : entry?.go q (fs.entries.filter fun x ↦ !place.isPrefixOf x.1) =
        if !place.isPrefixOf q then entry?.go q fs.entries else none :=
      go_filter fun p ↦ !place.isPrefixOf p
    have hpre : (place <+: q) ↔ place.isPrefixOf q = true := List.isPrefixOf_iff_prefix.symm
    rw [ entry?, if_neg hq, transplant, go_append, hkeep, hdrop, entry?, if_neg hq, entry?, if_neg hq]
    cases hb : place.isPrefixOf q <;> simp [hpre, hb]

namespace Plot

variable {x y : Plot} {l m : List (List Char)}

/-- What is in a plot. -/
def contents (x : Plot) (fs : FileSystem) : Contents := fun q ↦ fs.entry? (x.place ++ q)

theorem contents_eq_iff : x.contents f = x.contents g ↔ ∀ q, x.place <+: q → f.entry? q = g.entry? q := by
  constructor
  · rintro h q ⟨tail, rfl⟩
    exact congrFun h tail
  · exact fun h ↦ funext fun tail ↦ h _ (List.prefix_append ..)

theorem entry?_place_eq (h : x.contents f = x.contents g) : f.entry? x.place = g.entry? x.place :=
  contents_eq_iff.mp h _ (List.prefix_refl _)

/-- The places above a plot are not in it. -/
theorem not_place_prefix (hm : m <+: x.above) : ¬ x.place <+: x.base ++ m := by
  intro h
  have hlen := h.length_le
  have hmlen := hm.length_le
  simp only [place, names, List.length_append, List.length_singleton] at hlen
  omega

theorem prefix_place (hl : l <+: x.names) : x.base ++ l <+: x.place :=
  (List.prefix_append_right_inj _).mpr hl

/-! ### Work on a plot -/

/-- Work on a plot: outside of it, folders on the way to it are made, or something is changed in them; and no
link comes to its place, nor anything that is not in a directory. -/
structure Works (x : Plot) (fs fs' : FileSystem) : Prop where
  outside : ∀ q, ¬ x.place <+: q → fs'.entry? q = fs.entry? q ∨
    (q <+: x.place ∧ fs'.isDirAt q = true ∧
      (fs.isDirAt q = true ∨ (fs.entry? q = none ∧ fs'.isDirAt q.dropLast = true)))
  noLink : ∀ target, fs'.entry? x.place ≠ some (.link target)
  stands : ∀ e, fs'.entry? x.place = some e → fs'.isDirAt x.folder = true

namespace Works

/-- Nothing is done. -/
theorem refl (h : x.Sound fs) : x.Works fs fs where
  outside _ _ := Or.inl rfl
  noLink := h.noLink _ (List.prefix_refl _)
  stands e he := h.tree x.above x.last e (List.prefix_refl _) he

/-- The folders above are made. -/
theorem raise (hs : x.Sound fs) (h : x.Raised x.above fs fs') : x.Works fs fs' where
  outside q _ := by
    by_cases hm : ∃ m, m <+: x.above ∧ q = x.base ++ m
    · obtain ⟨m, hm, rfl⟩ := hm
      obtain ⟨hdir, hbefore⟩ := h.made m hm
      refine Or.inr ⟨prefix_place (hm.trans x.above_prefix_names), hdir, hbefore.symm.imp_right fun hnone ↦ ?_⟩
      refine ⟨hnone, ?_⟩
      rcases List.eq_nil_or_concat' m with rfl | ⟨m, k, rfl⟩
      · have hbase := hs.leads.isDirAt
        rw [List.append_nil] at hnone
        simp [isDirAt, hnone] at hbase
      · rw [← List.append_assoc, List.dropLast_concat]
        exact (h.made m ((List.prefix_append ..).trans hm)).1
    · exact Or.inl (h.same q fun m hml hq ↦ hm ⟨m, hml, hq⟩)
  noLink := (h.sound hs).noLink _ (List.prefix_refl _)
  stands e he := (h.sound hs).tree x.above x.last e (List.prefix_refl _) he

/-- What is in the plot is removed. -/
theorem erase (x : Plot) (fs : FileSystem) : x.Works fs (fs.eraseTree x.place) where
  outside q hq := by
    rw [entry?_eraseTree x.place_ne_nil, if_neg hq]
    split
    · rename_i h
      obtain ⟨rfl, hnil, hdir⟩ := h
      refine Or.inr ⟨List.dropLast_prefix _, ?_, Or.inl hdir⟩
      rw [isDirAt_iff, entry?_eraseTree x.place_ne_nil, if_neg hq, if_pos ⟨rfl, hnil, hdir⟩]
      exact ⟨_, rfl⟩
    · exact Or.inl rfl
  noLink target h := by
    rw [entry?_eraseTree x.place_ne_nil, if_pos (List.prefix_refl _)] at h
    cases h
  stands e he := by
    rw [entry?_eraseTree x.place_ne_nil, if_pos (List.prefix_refl _)] at he
    cases he

variable (h : x.Works fs fs')
include h

theorem isDirAt (hq : ¬ x.place <+: q) (hdir : fs.isDirAt q = true) : fs'.isDirAt q = true := by
  rcases h.outside q hq with hsame | ⟨-, hdir', -⟩
  · obtain ⟨time, hdir⟩ := isDirAt_iff.mp hdir
    exact isDirAt_iff.mpr ⟨time, hsame.trans hdir⟩
  · exact hdir'

/-- Files and links outside of the plot stay as they are. -/
theorem entry?_iff (hq : ¬ x.place <+: q) (he : ∀ time, e ≠ .dir time) :
    fs'.entry? q = some e ↔ fs.entry? q = some e := by
  rcases h.outside q hq with hsame | ⟨-, hdir', hbefore⟩
  · rw [hsame]
  · have hnot' : fs'.entry? q ≠ some e := by
      obtain ⟨time, hdir'⟩ := isDirAt_iff.mp hdir'
      rw [hdir']
      exact fun heq ↦ he time (Option.some.inj heq).symm
    have hnot : fs.entry? q ≠ some e := by
      rcases hbefore with hdir | ⟨hnone, -⟩
      · obtain ⟨time, hdir⟩ := isDirAt_iff.mp hdir
        rw [hdir]
        exact fun heq ↦ he time (Option.some.inj heq).symm
      · simp [hnone]
    exact ⟨fun heq ↦ absurd heq hnot', fun heq ↦ absurd heq hnot⟩

/-- Directories and links that keep off the plot stay where they are. -/
theorem holds {ground : FileSystem} (hclear : ∀ q, x.place <+: q → ground.entry? q = none)
    (hholds : ground.Holds fs) : ground.Holds fs' where
  dir q time hq := by
    have hoff : ¬ x.place <+: q := fun hpre ↦ by simp [hclear q hpre] at hq
    exact isDirAt_iff.mp (h.isDirAt hoff (isDirAt_iff.mpr (hholds.dir q time hq)))
  link q target hq := by
    have hoff : ¬ x.place <+: q := fun hpre ↦ by simp [hclear q hpre] at hq
    exact (h.entry?_iff hoff (by simp)).mpr (hholds.link q target hq)

/-- The way to a plot is as sound as before when there was work on it or on another one, in which it is not. -/
theorem sound (hs : y.Sound fs) (hleads : fs'.Leads (stepsOf y.front) y.base)
    (hxy : x = y ∨ ¬ x.place <+: y.place) : y.Sound fs' := by
  -- In the place of the plot itself there may be anything but a link.
  have hown (l : List (List Char)) (hl : l <+: y.names) (hpre : x.place <+: y.base ++ l) :
      x = y ∧ l = y.names := by
    rcases hxy with rfl | hapart
    · refine ⟨rfl, hl.eq_of_length_le ?_⟩
      exact ((List.prefix_append_right_inj _).mp hpre).length_le
    · exact absurd (hpre.trans (prefix_place hl)) hapart
  refine ⟨hleads, fun l hl target hlink ↦ ?_, fun l n e hl he ↦ ?_⟩
  · by_cases hpre : x.place <+: y.base ++ l
    · obtain ⟨rfl, rfl⟩ := hown l hl hpre
      exact h.noLink target hlink
    · exact hs.noLink l hl target ((h.entry?_iff hpre (by simp)).mp hlink)
  · by_cases hpre : x.place <+: y.base ++ (l ++ [n])
    · obtain ⟨rfl, heq⟩ := hown _ hl hpre
      obtain ⟨rfl, rfl⟩ := List.append_singleton_inj.mp heq
      exact h.stands e he
    · have habove : ¬ x.place <+: y.base ++ l := fun hpre' ↦
        hpre (hpre'.trans ((List.prefix_append_right_inj _).mpr (List.prefix_append ..)))
      rcases h.outside _ hpre with hsame | ⟨-, -, hdir | ⟨-, hdir⟩⟩
      · exact h.isDirAt habove (hs.tree l n e hl (hsame ▸ he))
      · obtain ⟨time, hdir⟩ := isDirAt_iff.mp hdir
        exact h.isDirAt habove (hs.tree l n _ hl hdir)
      · rwa [← List.append_assoc, List.dropLast_concat] at hdir

end Works

/-- What is removed is removed by work on the plot. -/
theorem Sound.works_removeTree (h : x.Sound fs) {r : Except Cause Unit}
    (hremove : fs.removeTree x.path = (r, fs')) : x.Works fs fs' := by
  cases hdir : fs.isDirAt x.place with
  | true =>
    rw [h.removeTree_of_isDirAt hdir] at hremove
    obtain ⟨-, rfl⟩ := Prod.mk.inj hremove
    exact .erase x fs
  | false =>
    obtain ⟨cause, heq, -⟩ := h.removeTree_of_not_isDirAt hdir
    rw [heq] at hremove
    obtain ⟨-, rfl⟩ := Prod.mk.inj hremove
    exact .refl h

/-- The folders above are made by work on the plot. -/
theorem Sound.works_makeDirs (h : x.Sound fs) (hp : x.path.parent? = some p)
    (hmake : fs.makeDirs p = .ok fs') : x.Works fs fs' := by
  by_cases hclear : x.Clear fs x.above
  · obtain ⟨p', fs₁, hp', hmake', hraised⟩ := h.makeAbove_of_clear hclear
    obtain rfl := Option.some.inj (hp'.symm.trans hp)
    obtain rfl := Except.ok.inj (hmake'.symm.trans hmake)
    exact .raise h hraised
  · simp only [Clear, not_forall, ne_eq, not_not] at hclear
    obtain ⟨m, ⟨tail, hm⟩, bytes, runnable, hfile⟩ := hclear
    obtain ⟨p', hp', herror⟩ := h.makeAbove_of_file hm hfile
    obtain rfl := Option.some.inj (hp'.symm.trans hp)
    cases herror.symm.trans hmake

end Plot

/-! ### Plots beside each other -/

/-- Plots of which none is in another one. The ways to their folders are those of a file system that has
nothing in any of them. -/
structure Plots (ι : Type) where
  ground : FileSystem
  /-- Which plots are meant. -/
  used : ι → Prop
  plot : ι → Plot
  leads : ∀ i, used i → ground.Leads (stepsOf (plot i).front) (plot i).base
  clear : ∀ i, used i → ∀ q, (plot i).place <+: q → ground.entry? q = none
  apart : ∀ i j, used i → used j → i ≠ j → ¬ (plot i).place <+: (plot j).place

namespace Plots

variable {ι : Type} {P : Plots ι} {i j : ι}

/-- The ways to the folders are kept, and so are those to the plots. -/
structure Sound (P : Plots ι) (fs : FileSystem) : Prop where
  holds : P.ground.Holds fs
  plot : ∀ i, P.used i → (P.plot i).Sound fs

/-- One of the plots, by itself. -/
def only (P : Plots ι) (i : ι) (h : P.used i) : Plots ι where
  ground := P.ground
  used := (· = i)
  plot := P.plot
  leads := by
    rintro _ rfl
    exact P.leads _ h
  clear := by
    rintro _ rfl
    exact P.clear _ h
  apart := by
    rintro _ _ rfl rfl hne
    exact absurd rfl hne

theorem Sound.only (h : P.Sound fs) (hi : P.used i) : (P.only i hi).Sound fs where
  holds := h.holds
  plot j hj := by
    have hj : j = i := hj
    exact hj ▸ h.plot i hi

/-- Plots are as sound as before when there was work on one of them. -/
theorem Sound.works (h : P.Sound fs) (hi : P.used i) (hworks : (P.plot i).Works fs fs') : P.Sound fs' := by
  have hholds := hworks.holds (P.clear i hi) h.holds
  refine ⟨hholds, fun j hj ↦ hworks.sound (h.plot j hj) ((P.leads j hj).of_holds hholds) ?_⟩
  by_cases hij : i = j
  · exact Or.inl (by rw [hij])
  · exact Or.inr (P.apart i j hi hj hij)

/-- A plot is the same in both file systems. There may be more folders above it in the first one, in which
there are other plots as well. -/
structure Twins (P : Plots ι) (i : ι) (hi : P.used i) (f g : FileSystem) : Prop where
  left : P.Sound f
  right : (P.only i hi).Sound g
  contents : (P.plot i).contents f = (P.plot i).contents g
  isDirAt : ∀ m, m <+: (P.plot i).above → g.isDirAt ((P.plot i).base ++ m) = true →
    f.isDirAt ((P.plot i).base ++ m) = true
  file : ∀ m, m <+: (P.plot i).above → ∀ bytes runnable,
    f.entry? ((P.plot i).base ++ m) = some (.file bytes runnable) ↔
      g.entry? ((P.plot i).base ++ m) = some (.file bytes runnable)

namespace Twins

variable {hi : P.used i}

theorem refl (h : P.Sound fs) (hi : P.used i) : P.Twins i hi fs fs :=
  ⟨h, h.only hi, rfl, fun _ _ hdir ↦ hdir, fun _ _ _ _ ↦ Iff.rfl⟩

variable (h : P.Twins i hi f g)
include h

theorem sound_left : (P.plot i).Sound f := h.left.plot i hi

theorem sound_right : (P.plot i).Sound g := h.right.plot i rfl

theorem entry?_eq : f.entry? (P.plot i).place = g.entry? (P.plot i).place := Plot.entry?_place_eq h.contents

theorem clear_iff : (P.plot i).Clear f (P.plot i).above ↔ (P.plot i).Clear g (P.plot i).above :=
  forall₂_congr fun m hm ↦ forall₂_congr fun bytes runnable ↦ not_congr (h.file m hm bytes runnable)

/-- Work on another plot leaves the plot alone. -/
theorem beside (hj : P.used j) (hne : j ≠ i) (hworks : (P.plot j).Works f f') : P.Twins i hi f' g := by
  have hij := P.apart i j hi hj (Ne.symm hne)
  have hji := P.apart j i hj hi hne
  have habove (m : List (List Char)) (hm : m <+: (P.plot i).above) :
      ¬ (P.plot j).place <+: (P.plot i).base ++ m := fun hpre ↦
    hji (hpre.trans (Plot.prefix_place (hm.trans (P.plot i).above_prefix_names)))
  refine ⟨h.left.works hj hworks, h.right, ?_, fun m hm hdir ↦ ?_, fun m hm bytes runnable ↦ ?_⟩
  · rw [← h.contents]
    refine Plot.contents_eq_iff.mpr fun q hq ↦ ?_
    have hoff : ¬ (P.plot j).place <+: q := fun hpre ↦
      (List.prefix_or_prefix_of_prefix hpre hq).elim hji hij
    exact (hworks.outside q hoff).resolve_right fun hdir ↦ hij (hq.trans hdir.1)
  · exact hworks.isDirAt (habove m hm) (h.isDirAt m hm hdir)
  · exact (hworks.entry?_iff (habove m hm) (by simp)).trans (h.file m hm bytes runnable)

/-- The same work on the plot leaves twins. -/
theorem own (hf : (P.plot i).Works f f') (hg : (P.plot i).Works g g')
    (hcontents : (P.plot i).contents f' = (P.plot i).contents g')
    (hdir : ∀ m, m <+: (P.plot i).above → g'.isDirAt ((P.plot i).base ++ m) = true →
      g.isDirAt ((P.plot i).base ++ m) = true ∨ f'.isDirAt ((P.plot i).base ++ m) = true) :
    P.Twins i hi f' g' := by
  refine ⟨h.left.works hi hf, h.right.works rfl hg, hcontents, fun m hm hgdir ↦ ?_, fun m hm bytes runnable ↦ ?_⟩
  · rcases hdir m hm hgdir with hbefore | hafter
    · exact hf.isDirAt (Plot.not_place_prefix hm) (h.isDirAt m hm hbefore)
    · exact hafter
  · exact (hf.entry?_iff (Plot.not_place_prefix hm) (by simp)).trans
      ((h.file m hm bytes runnable).trans (hg.entry?_iff (Plot.not_place_prefix hm) (by simp)).symm)

/-! ### What is done on the plot in twins -/

theorem present_eq : f.present (P.plot i).path = g.present (P.plot i).path := by
  rw [h.sound_left.present_path, h.sound_right.present_path, h.entry?_eq]

theorem dirTime?_eq : f.dirTime? (P.plot i).path = g.dirTime? (P.plot i).path := by
  rw [h.sound_left.dirTime?_path, h.sound_right.dirTime?_path, h.entry?_eq]

/-- When something is in the plot, the folder above it is a directory. -/
theorem isDirAt_of_present (hpresent : g.present (P.plot i).path = true) :
    g.isDirAt (P.plot i).folder = true := by
  rw [h.sound_right.present_path] at hpresent
  obtain ⟨e, he⟩ := Option.isSome_iff_exists.mp hpresent
  exact h.sound_right.tree (P.plot i).above (P.plot i).last e (List.prefix_refl _) he

/-- What is removed in one is removed in the other. -/
theorem removeTree : ∃ r f' g', f.removeTree (P.plot i).path = (r, f') ∧
    g.removeTree (P.plot i).path = (r, g') ∧ P.Twins i hi f' g' := by
  have hisDirAt : f.isDirAt (P.plot i).place = g.isDirAt (P.plot i).place := by
    rw [FileSystem.isDirAt, h.entry?_eq, FileSystem.isDirAt]
  cases hdir : f.isDirAt (P.plot i).place with
  | true =>
    refine ⟨_, _, _, h.sound_left.removeTree_of_isDirAt hdir,
      h.sound_right.removeTree_of_isDirAt (hisDirAt ▸ hdir), ?_⟩
    refine h.own (.erase _ f) (.erase _ g) (Plot.contents_eq_iff.mpr fun q hq ↦ ?_) fun m hm hgdir ↦ Or.inl ?_
    · rw [entry?_eraseTree (P.plot i).place_ne_nil, entry?_eraseTree (P.plot i).place_ne_nil, if_pos hq,
        if_pos hq]
    · rw [isDirAt_iff, entry?_eraseTree (P.plot i).place_ne_nil, if_neg (Plot.not_place_prefix hm)] at hgdir
      split at hgdir
      · rename_i hfolder
        exact hfolder.2.2
      · exact isDirAt_iff.mpr hgdir
  | false =>
    obtain ⟨c, hf, hcf⟩ := h.sound_left.removeTree_of_not_isDirAt hdir
    obtain ⟨d, hg, hcg⟩ := h.sound_right.removeTree_of_not_isDirAt (hisDirAt ▸ hdir)
    obtain rfl : c = d := by
      rw [h.entry?_eq, h.clear_iff] at hcf
      rcases hcf with ⟨rfl, hnone, hclear⟩ | ⟨rfl, hnot⟩ <;> rcases hcg with ⟨rfl, hnone', hclear'⟩ | ⟨rfl, hnot'⟩
      · rfl
      · exact (hnot'.elim (fun hne ↦ hne hnone) fun hfile ↦ hfile hclear).elim
      · exact (hnot.elim (fun hne ↦ hne hnone') fun hfile ↦ hfile hclear').elim
      · rfl
    exact ⟨_, f, g, hf, hg, h⟩

/-- The folders above the plot are made in both, or in neither of them for the same cause. -/
theorem makeAbove : ∃ p, (P.plot i).path.parent? = some p ∧
    ((∃ f' g', f.makeDirs p = .ok f' ∧ g.makeDirs p = .ok g' ∧ P.Twins i hi f' g' ∧
      g'.isDirAt (P.plot i).folder = true) ∨
    ∃ cause, f.makeDirs p = .error cause ∧ g.makeDirs p = .error cause) := by
  by_cases hclear : (P.plot i).Clear f (P.plot i).above
  · obtain ⟨p, f', hp, hf, hraised⟩ := h.sound_left.makeAbove_of_clear hclear
    obtain ⟨p', g', hp', hg, hraised'⟩ := h.sound_right.makeAbove_of_clear (h.clear_iff.mp hclear)
    obtain rfl := Option.some.inj (hp.symm.trans hp')
    refine ⟨p, hp, Or.inl ⟨f', g', hf, hg, ?_, (hraised'.made _ (List.prefix_refl _)).1⟩⟩
    refine h.own (.raise h.sound_left hraised) (.raise h.sound_right hraised')
      (Plot.contents_eq_iff.mpr fun q hq ↦ ?_) fun m hm _ ↦ Or.inr (hraised.made m hm).1
    have hoff (m : List (List Char)) (hm : m <+: (P.plot i).above) : q ≠ (P.plot i).base ++ m := by
      rintro rfl
      exact Plot.not_place_prefix hm hq
    rw [hraised.same q hoff, hraised'.same q hoff]
    exact Plot.contents_eq_iff.mp h.contents q hq
  · simp only [Plot.Clear, not_forall, ne_eq, not_not] at hclear
    obtain ⟨m, ⟨tail, hm⟩, bytes, runnable, hfile⟩ := hclear
    obtain ⟨p, hp, hf⟩ := h.sound_left.makeAbove_of_file hm hfile
    obtain ⟨p', hp', hg⟩ := h.sound_right.makeAbove_of_file hm
      ((h.file m (hm ▸ List.prefix_append ..) bytes runnable).mp hfile)
    obtain rfl := Option.some.inj (hp.symm.trans hp')
    exact ⟨p, hp, Or.inr ⟨_, hf, hg⟩⟩

/-- What work makes of the plot in one, other work makes of it in the other. -/
theorem change (hf : (P.plot i).Works f f') (hfolder : g.isDirAt (P.plot i).folder = true) :
    ∃ g', (P.plot i).Works g g' ∧ g'.isDirAt (P.plot i).folder = true ∧ P.Twins i hi f' g' := by
  have hentry (q : Place) : entry? (g.transplant (P.plot i).place f') q =
      if (P.plot i).place <+: q then f'.entry? q else g.entry? q := entry?_transplant (P.plot i).place_ne_nil
  have habove (m : List (List Char)) (hm : m <+: (P.plot i).above) :
      (g.transplant (P.plot i).place f').isDirAt ((P.plot i).base ++ m) =
        g.isDirAt ((P.plot i).base ++ m) := by
    rw [FileSystem.isDirAt, hentry, if_neg (Plot.not_place_prefix hm), FileSystem.isDirAt]
  have hplace : entry? (g.transplant (P.plot i).place f') (P.plot i).place = f'.entry? (P.plot i).place := by
    rw [hentry, if_pos (List.prefix_refl _)]
  have hstands := (habove _ (List.prefix_refl _)).trans hfolder
  have hg : (P.plot i).Works g (g.transplant (P.plot i).place f') := by
    refine ⟨fun q hq ↦ Or.inl (by rw [hentry, if_neg hq]), fun target hlink ↦ ?_, fun _ _ ↦ hstands⟩
    exact hf.noLink target (hplace.symm.trans hlink)
  refine ⟨_, hg, hstands, h.own hf hg (Plot.contents_eq_iff.mpr fun q hq ↦ ?_) fun m hm hdir ↦ Or.inl ?_⟩
  · rw [hentry, if_pos hq]
  · exact (habove m hm).symm.trans hdir

end Twins

end Plots

end CodeNav.FileSystem
