import CodeNav.Proofs.FileSystem.Ways
import CodeNav.Proofs.Settings.Texts
import CodeNav.Proofs.Text.Split

/-!
# Storing settings step by step

A settings file is open when its folder is there, and nothing but files stands at its place and beside it,
where new settings are written first. It stays open when settings are stored: writing them beside the file
changes nothing of what is stored, and replacing the file moves what was written there last, by whomever, into
its place. When there is nothing beside the file, it cannot be replaced.

## Main definitions

* `SettingsFile.Site`: where a settings file is
* `SettingsFile.Site.Open`: settings can be stored there
* `SettingsFile.Site.Ready`: settings are stored there, and others can be
* `SettingsFile.kept`: the settings of what stands in the place of the file

## Main statements

* `SettingsFile.Site.Open.load`: the stored settings
* `SettingsFile.Site.Open.makeFolder`, `SettingsFile.Site.Open.writeStaging`, `SettingsFile.Site.Open.replace`:
  the steps in which settings are stored
* `SettingsFile.Site.Open.of_replace`: what is stored is what was written last
-/

namespace CodeNav.SettingsFile

open FileSystem (Place Entry Found maxLinks stepsOf)

variable {f : SettingsFile} {fs fs' : FileSystem} {s : Settings} {e : Entry}

/-- The settings of what stands in the place of the file. -/
def kept (f : SettingsFile) : Option Entry → Except SettingsError Settings
  | some (.file bytes _) =>
    match String.fromUTF8? bytes with
    | none => .error (.notText f.path)
    | some text => parse f.path text
  | _ => .ok f.defaults

/-- The bytes of stored settings. -/
def bytesOf (s : Settings) : ByteArray := ⟨(Text.utf8Bytes (render s).toList).toArray⟩

@[simp]
theorem kept_bytesOf (f : SettingsFile) (s : Settings) (runnable : Bool) :
    f.kept (some (.file (bytesOf s) runnable)) = .ok s := by
  have htext : String.fromUTF8? (bytesOf s) = some (render s) := by
    have hread := Text.utf8Text?_utf8Bytes (render s).toList
    rwa [String.ofList_toList] at hread
  simp only [kept, htext, parse_render]

/-- Where a settings file is: the way to its folder, and the names of the file and of the one beside it. -/
structure Site where
  way : List FileSystem.Step
  folder : Place
  name : List Char
  staged : List Char

namespace Site

variable {x : Site}

/-- The place of the file. -/
def place (x : Site) : Place := x.folder ++ [x.name]

/-- The place of the file beside it. -/
def stagingPlace (x : Site) : Place := x.folder ++ [x.staged]

/-- Settings can be stored at a site. -/
structure Open (x : Site) (f : SettingsFile) (fs : FileSystem) : Prop where
  path : stepsOf f.path.text.toList = x.way ++ [.down x.name]
  staging : stepsOf f.staging.text.toList = x.way ++ [.down x.staged]
  ne : x.name ≠ x.staged
  parent : ∀ p, f.path.parent? = some p → p.text.isEmpty = true ∨ fs.isDir p = true
  /-- The way leads to the folder. -/
  leads : ∃ time, fs.walkFrom true (fs.walkFuel (x.way ++ [.down x.name])) maxLinks [] x.way =
    .ok (.at x.folder (.dir time))
  free : fs.IsFree x.place
  clear : fs.IsClear x.stagingPlace

theorem place_ne_nil (x : Site) : x.place ≠ [] := by simp [place]

theorem stagingPlace_ne_nil (x : Site) : x.stagingPlace ≠ [] := by simp [stagingPlace]

namespace Open

theorem place_ne (h : x.Open f fs) : x.place ≠ x.stagingPlace := by
  simpa [place, stagingPlace] using h.ne

/-- What a walk to a name in the folder finds. -/
theorem walk (h : x.Open f fs) (follow : Bool) {p : Path} {name : List Char}
    (hp : stepsOf p.text.toList = x.way ++ [.down name]) (hfree : fs.IsFree (x.folder ++ [name])) :
    fs.walk p follow =
      .ok ((fs.entry? (x.folder ++ [name])).elim (.absent x.folder name) (.at (x.folder ++ [name]))) := by
  obtain ⟨time, hleads⟩ := h.leads
  have hempty := FileSystem.isEmpty_eq_false hp
  have hfuel : fs.walkFuel (x.way ++ [.down name]) = fs.walkFuel (x.way ++ [.down x.name]) := by
    simp [FileSystem.walkFuel]
  simp only [FileSystem.walk, hempty, hp, hfuel, Bool.false_eq_true, if_false]
  exact (FileSystem.arrives_of_walkFrom hleads).walkFrom_append_down hfree

theorem walk_path (h : x.Open f fs) (follow : Bool) :
    fs.walk f.path follow = .ok ((fs.entry? x.place).elim (.absent x.folder x.name) (.at x.place)) :=
  h.walk follow h.path h.free

theorem walk_staging (h : x.Open f fs) (follow : Bool) : fs.walk f.staging follow =
    .ok ((fs.entry? x.stagingPlace).elim (.absent x.folder x.staged) (.at x.stagingPlace)) :=
  h.walk follow h.staging (h.clear.isFree x.stagingPlace_ne_nil)

/-- The stored settings are those of what stands in the place of the file. -/
theorem load (h : x.Open f fs) : f.load fs = f.kept (fs.entry? x.place) := by
  rw [SettingsFile.load, FileSystem.read, FileSystem.stat, h.walk_path]
  cases he : fs.entry? x.place with
  | none => rfl
  | some e =>
    obtain ⟨bytes, runnable, rfl⟩ := h.free e he
    rfl

/-- A site stays open as long as directories and links are kept, and only files are put there. -/
theorem of_keeps (h : x.Open f fs) (hkeeps : fs.Keeps fs') (hfree : fs'.IsFree x.place)
    (hclear : fs'.IsClear x.stagingPlace) : x.Open f fs' where
  path := h.path
  staging := h.staging
  ne := h.ne
  parent p hp := (h.parent p hp).imp_right (FileSystem.isDir_of_keeps hkeeps)
  leads := by
    obtain ⟨time, hleads⟩ := h.leads
    rw [hkeeps.fuel]
    exact FileSystem.walkFrom_of_holds hkeeps.toHolds hleads
  free := hfree
  clear := hclear

/-- The folder is there. -/
theorem makeFolder (h : x.Open f fs) (s : Settings) : f.perform s .makeFolder fs = .ok fs := by
  simp only [perform]
  cases hp : f.path.parent? with
  | none => rfl
  | some p =>
    rcases h.parent p hp with hempty | hdir
    · simp only [FileSystem.makeDirs, FileSystem.makeDirsWith, hempty, if_true]
    · simp only [FileSystem.makeDirs_of_isDir hdir]

theorem not_stagingPlace_prefix_folder (x : Site) : ¬ x.stagingPlace <+: x.folder := by
  intro hpre
  have hlen := hpre.length_le
  simp [stagingPlace] at hlen

theorem not_stagingPlace_prefix_place (h : x.Open f fs) : ¬ x.stagingPlace <+: x.place := by
  intro hpre
  exact h.place_ne (hpre.eq_of_length (by simp [place, stagingPlace])).symm

/-- The way leads to the folder however long the walk is. -/
theorem leads_folder (h : x.Open f fs) : fs.Leads x.way x.folder := by
  obtain ⟨time, hleads⟩ := h.leads
  exact ⟨_, time, hleads⟩

/-- New settings are written beside the file. -/
theorem writeStaging (h : x.Open f fs) (s : Settings) : ∃ fs' runnable,
    f.perform s .writeStaging fs = .ok fs' ∧ x.Open f fs' ∧ fs'.entry? x.place = fs.entry? x.place ∧
      fs'.entry? x.stagingPlace = some (.file (bytesOf s) runnable) := by
  obtain ⟨fs', runnable, hwrite, hkeeps, hclear, hstaging, hsame⟩ :=
    h.leads_folder.write h.staging h.clear (bytesOf s)
  have hplace : fs'.entry? x.place = fs.entry? x.place := hsame x.name h.ne
  refine ⟨fs', runnable, ?_, h.of_keeps hkeeps (fun e he ↦ h.free e (hplace ▸ he)) hclear, hplace, hstaging⟩
  rw [bytesOf] at hwrite
  simp only [perform, hwrite]

/-- The file cannot be replaced when there is nothing beside it. -/
theorem replace_of_none (h : x.Open f fs) (hstaging : fs.entry? x.stagingPlace = none) (s : Settings) :
    f.perform s .replace fs = .error (.notReplaced f.path .notFound) := by
  simp only [perform, FileSystem.rename, h.walk_staging, hstaging, Option.elim_none]

/-- What stands beside the file takes its place. -/
theorem replace (h : x.Open f fs) (hstaging : fs.entry? x.stagingPlace = some e) (s : Settings) :
    ∃ fs', f.perform s .replace fs = .ok fs' ∧ x.Open f fs' ∧ fs'.entry? x.place = some e ∧
      fs'.entry? x.stagingPlace = none := by
  have hcut := x.stagingPlace_ne_nil
  have hfolder : x.place.dropLast = x.folder := by simp [place]
  -- What stood beside the file is put in its place, and the time of the folder changes.
  have hput : x.Open f (((fs.eraseTree x.stagingPlace).put x.place e).touch x.folder) ∧
      FileSystem.entry? (((fs.eraseTree x.stagingPlace).put x.place e).touch x.folder) x.place = some e ∧
      FileSystem.entry? (((fs.eraseTree x.stagingPlace).put x.place e).touch x.folder) x.stagingPlace = none := by
    obtain ⟨bytes, runnable, rfl⟩ := h.clear.isFree hcut e hstaging
    have hkeeps := FileSystem.keeps_eraseTree h.clear hcut
    have hold : FileSystem.entry? (fs.eraseTree x.stagingPlace) x.place = fs.entry? x.place := by
      rw [FileSystem.entry?_eraseTree hcut, if_neg (not_stagingPlace_prefix_place h), if_neg]
      rintro ⟨heq, -⟩
      have hlen := congrArg List.length heq
      simp [place, stagingPlace] at hlen
    have hplace : FileSystem.entry?
        (((fs.eraseTree x.stagingPlace).put x.place (.file bytes runnable)).touch x.folder) x.place =
          some (.file bytes runnable) := by
      rw [place, FileSystem.entry?_touch_down, ← place, FileSystem.entry?_put x.place_ne_nil, if_pos rfl]
    refine ⟨h.of_keeps ((hkeeps.trans (FileSystem.keeps_put ?_ x.place_ne_nil)).trans FileSystem.keeps_touch)
      ?_ ?_, hplace, ?_⟩
    · exact fun e he ↦ h.free e (hold ▸ he)
    · intro e he
      exact ⟨bytes, runnable, Option.some.inj (he.symm.trans hplace)⟩
    · refine ((h.clear.eraseTree hcut).put fun hpre ↦ ?_).touch (not_stagingPlace_prefix_folder x)
      exact absurd hpre (not_stagingPlace_prefix_place h)
    · rw [stagingPlace, FileSystem.entry?_touch_down, ← stagingPlace, FileSystem.entry?_put x.place_ne_nil,
        if_neg h.place_ne.symm, FileSystem.entry?_eraseTree hcut, if_pos (List.prefix_refl _)]
  refine ⟨_, ?_, hput⟩
  simp only [perform, FileSystem.rename, h.walk_staging, h.walk_path, hstaging, Option.elim_some,
    FileSystem.refusal?_of_down h.path]
  obtain ⟨bytes, runnable, rfl⟩ := h.clear.isFree hcut e hstaging
  cases hold : fs.entry? x.place with
  | none => simp only [Option.elim_none, FileSystem.moveEntry, FileSystem.add, place]
  | some old =>
    obtain ⟨old, oldRunnable, rfl⟩ := h.free old hold
    simp only [Option.elim_some, FileSystem.moveEntry, if_neg h.place_ne.symm, hfolder]

end Open

/-! ### Several who store settings -/

/-- Settings are stored at a site, where others can be stored as soon as there is a folder. -/
structure Ready (x : Site) (f : SettingsFile) (fs : FileSystem) (s : Settings) : Prop where
  load : f.load fs = .ok s
  folder : ∃ fs', (∀ p, f.perform p .makeFolder fs = .ok fs') ∧ x.Open f fs' ∧ f.load fs' = .ok s

/-- New settings that stand beside the file, if there are any. -/
def Beside (x : Site) (fs : FileSystem) : Option Settings → Prop
  | none => fs.entry? x.stagingPlace = none
  | some p => ∃ runnable, fs.entry? x.stagingPlace = some (.file (bytesOf p) runnable)

variable {p q : Settings} {p? : Option Settings} {error : SettingsError}

theorem Open.ready (h : x.Open f fs) (hload : f.load fs = .ok s) : x.Ready f fs s :=
  ⟨hload, fs, h.makeFolder, h, hload⟩

/-- Making the folder changes nothing of what is stored, and nothing at all when it is there. -/
theorem Ready.of_makeFolder (h : x.Ready f fs s) (hmake : f.perform p .makeFolder fs = .ok fs') :
    x.Open f fs' ∧ x.Ready f fs' s ∧ (x.Open f fs → fs' = fs) := by
  obtain ⟨made, hmade, hopen, hload⟩ := h.folder
  obtain rfl := Except.ok.inj ((hmade p).symm.trans hmake)
  exact ⟨hopen, hopen.ready hload, fun h ↦ Except.ok.inj (hmake.symm.trans (h.makeFolder p))⟩

/-- Settings that are written beside the file stand there. -/
theorem Open.of_writeStaging (h : x.Open f fs) (hwrite : f.perform p .writeStaging fs = .ok fs') :
    x.Open f fs' ∧ f.load fs' = f.load fs ∧ x.Beside fs' (some p) := by
  obtain ⟨written, runnable, hwritten, hopen, hplace, hstaging⟩ := h.writeStaging p
  obtain rfl := Except.ok.inj (hwritten.symm.trans hwrite)
  exact ⟨hopen, by rw [hopen.load, h.load, hplace], runnable, hstaging⟩

/-- Whoever replaces the file stores what was written last. -/
theorem Open.of_replace (h : x.Open f fs) (hbeside : x.Beside fs p?)
    (hreplace : f.perform q .replace fs = .ok fs') :
    ∃ p, p? = some p ∧ x.Open f fs' ∧ f.load fs' = .ok p ∧ x.Beside fs' none := by
  cases p? with
  | none => cases (h.replace_of_none hbeside q).symm.trans hreplace
  | some p =>
    obtain ⟨runnable, hstaging⟩ := hbeside
    obtain ⟨replaced, hreplaced, hopen, hplace, hnone⟩ := h.replace hstaging q
    obtain rfl := Except.ok.inj (hreplaced.symm.trans hreplace)
    exact ⟨p, rfl, hopen, by rw [hopen.load, hplace, kept_bytesOf], hnone⟩

/-- The file cannot be replaced a second time with what was written once. -/
theorem Open.of_replace_eq_error (h : x.Open f fs) (hbeside : x.Beside fs p?)
    (hreplace : f.perform q .replace fs = .error error) : p? = none ∧ error = .notReplaced f.path .notFound := by
  cases p? with
  | none => exact ⟨rfl, (Except.error.inj ((h.replace_of_none hbeside q).symm.trans hreplace)).symm⟩
  | some p =>
    obtain ⟨runnable, hstaging⟩ := hbeside
    obtain ⟨replaced, hreplaced, -⟩ := h.replace hstaging q
    cases hreplaced.symm.trans hreplace

end Site

end CodeNav.SettingsFile
