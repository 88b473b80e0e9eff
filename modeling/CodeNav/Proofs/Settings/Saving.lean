import CodeNav.Proofs.FileSystem.Folders
import CodeNav.Proofs.Settings.Steps

/-!
# Saving settings

Settings are stored, or what is loaded stays as it was: whichever of the steps fails in which they are stored,
and whatever stands in the way. The folders that lead to the file are the one thing a failure may leave
behind. They can be seen where the path of the file leads up again out of a folder that was missing: then it
leads somewhere at last, and what was stored there all along is found.

## Main definitions

* `FileSystem.IsLink`: a path names a link
* `Path.bare`: a path without slashes and dots at its end that say nothing

## Main statements

* `SettingsFile.load_of_save`: what is loaded after settings were saved, or were not
* `SettingsFile.load_of_save_climbing`: what is loaded differs where the path leads up out of a folder that
  was missing
-/

namespace CodeNav

namespace Path

variable {name : List Char}

/-- A path without slashes and dots at its end that say nothing. -/
def bare (p : Path) : Path := ⟨String.ofList (dropIdleEnd p.text.toList.reverse).reverse⟩

/-- The stem of a name. -/
theorem cutSuffix_prefix (name : List Char) : (cutSuffix name).1 <+: name := by
  have hname : name =
      (name.reverse.dropWhile (· ≠ '.')).reverse ++ (name.reverse.takeWhile (· ≠ '.')).reverse := by
    rw [← List.reverse_append, List.takeWhile_append_dropWhile, List.reverse_reverse]
  rw [cutSuffix]
  split
  · exact List.prefix_refl name
  · exact List.prefix_refl name
  · rename_i stem _ hdrop
    rw [hdrop, List.reverse_cons, List.append_assoc] at hname
    exact ⟨_, hname.symm⟩
  · exact List.prefix_refl name

/-- A name is not the one with another suffix of two parts. -/
theorem ne_cutSuffix_append (name : List Char) : name ≠ (cutSuffix name).1 ++ '.' :: "json.tmp".toList := by
  intro hname
  have hcut : (cutSuffix name).1 = (cutSuffix name).1 ++ ".json".toList := by
    conv_lhs => rw [hname]
    simp [cutSuffix]
  simpa using congrArg List.length hcut

end Path

/-- A path names a link. -/
def FileSystem.IsLink (fs : FileSystem) (p : Path) : Prop :=
  ∃ place target, fs.walk p false = .ok (.at place (.link target))

namespace SettingsFile

open FileSystem (Place Entry Step stepsOf stepOf wayOf lastStop)

variable {f : SettingsFile} {fs fs' : FileSystem} {s : Settings} {folder : Place} {front last : List Char}
  {error : SettingsError}

/-- What is loaded depends on what is found. -/
theorem load_congr (h : fs'.walk f.path true = fs.walk f.path true) : f.load fs' = f.load fs := by
  rw [load, load, FileSystem.read, FileSystem.read, FileSystem.stat, FileSystem.stat, h]

/-- Nothing is stored where a path is blocked by something missing, or ends in a name that is. -/
theorem load_of_notFound (h : fs.stat f.path = .error .notFound) : f.load fs = .ok f.defaults := by
  rw [load, FileSystem.read, h]

/-- What a file holds is stored. -/
theorem load_of_file {place : Place} {bytes : ByteArray} {runnable : Bool}
    (h : fs.stat f.path = .ok (place, .file bytes runnable)) :
    f.load fs = f.kept (some (.file bytes runnable)) := by
  rw [load, FileSystem.read, h]
  rfl

/-- Settings are saved from the files that making the folder leaves. -/
theorem save_of_makeFolder (h : f.perform s .makeFolder fs = .ok fs')
    (h' : f.perform s .makeFolder fs' = .ok fs') :
    f.save s fs = f.save s fs' := by
  rw [save, save, h, h']

theorem save_of_writeStaging_eq_error (hmake : f.perform s .makeFolder fs = .ok fs)
    (h : f.perform s .writeStaging fs = .error error) : f.save s fs = (.error error, fs) := by
  rw [save, hmake]
  simp only [h, leftBy]

/-- After settings were saved they are loaded, and what is loaded stays as it was when they could not be
saved. -/
def AllOrNothing (f : SettingsFile) (s : Settings) (fs : FileSystem) : Prop :=
  match f.save s fs with
  | (.ok (), fs') => f.load fs' = .ok s
  | (.error _, fs') => f.load fs' = f.load fs

theorem allOrNothing_of_unchanged (h : f.save s fs = (.error error, fs)) : f.AllOrNothing s fs := by
  rw [AllOrNothing, h]

/-- Settings are not written into a directory. -/
theorem exists_writeStaging_eq_error (h : fs.Leads (stepsOf f.staging.text.toList) folder) (s : Settings) :
    ∃ error, f.perform s .writeStaging fs = .error error := by
  cases htext : f.staging.text.isEmpty with
  | true =>
    refine ⟨.notWritten f.staging .notFound, ?_⟩
    simp only [perform, FileSystem.write, FileSystem.walk, htext, if_true]
  | false =>
    obtain ⟨-, place, time, hwalk⟩ := FileSystem.isDir_iff.mp ((FileSystem.isDir_iff_leads htext).mpr ⟨folder, h⟩)
    refine ⟨.notWritten f.staging .isDirectory, ?_⟩
    simp only [perform, FileSystem.write, FileSystem.walk, htext, Bool.false_eq_true, if_false, hwalk]

/-- No folder is to be made above a path that leads to one, up or not at all. -/
theorem allOrNothing_of_leads (hmake : f.perform s .makeFolder fs = .ok fs)
    (h : fs.Leads (stepsOf f.staging.text.toList) folder) : f.AllOrNothing s fs := by
  obtain ⟨error, hwrite⟩ := exists_writeStaging_eq_error h s
  exact allOrNothing_of_unchanged (save_of_writeStaging_eq_error hmake hwrite)

/-- The name of the file beside one with the name. -/
def stagedName (last : List Char) : List Char := (Path.cutSuffix last).1 ++ '.' :: "json.tmp".toList

/-- The site of a file whose path ends in a name. -/
def siteOf (front last : List Char) (folder : Place) : Site := ⟨wayOf front, folder, last, stagedName last⟩

section Named

variable (hends : f.path.EndsIn front last) (hlast : last ≠ ['.', '.'])
include hends hlast

theorem steps_path : ∃ k, stepsOf f.path.text.toList = wayOf front ++ .down last :: List.replicate k .stay := by
  obtain ⟨k, hk⟩ := hends.steps
  exact ⟨k, by rw [hk, FileSystem.stepOf_eq_down hlast]⟩

theorem steps_bare : stepsOf f.path.bare.text.toList = wayOf front ++ [.down last] := by
  rw [Path.bare, String.toList_ofList, hends.dropIdleEnd_eq,
    hends.stepsOf_append hends.slash hends.ne_nil hends.ne_dot,
    FileSystem.stepOf_eq_down hlast]

theorem steps_staging : stepsOf f.staging.text.toList = wayOf front ++ [.down (stagedName last)] := by
  have hslash : '/' ∉ stagedName last := by
    rw [stagedName, List.mem_append, not_or]
    exact ⟨fun h ↦ hends.slash ((Path.cutSuffix_prefix last).subset h), by decide⟩
  have hlength : 9 ≤ (stagedName last).length := by simp [stagedName]
  have hne (short : List Char) (hshort : short.length < 9) : stagedName last ≠ short := by
    rintro rfl
    omega
  rw [staging, hends.withSuffix hlast, String.toList_ofList, ← stagedName,
    hends.stepsOf_append hslash (hne _ (by simp)) (hne _ (by simp)), FileSystem.stepOf_eq_down (hne _ (by simp))]

variable (htree : fs.IsTree) (hleads : fs.Leads (wayOf front) folder)
include hleads

omit hlast in
/-- The folder is there. -/
theorem makeFolder_of_leads (s : Settings) : f.perform s .makeFolder fs = .ok fs := by
  simp only [perform, hends.parent?]
  cases htext : (Path.above front).text.isEmpty with
  | true => simp only [FileSystem.makeDirs, FileSystem.makeDirsWith, htext, if_true]
  | false =>
    have hdir := (FileSystem.isDir_iff_leads htext).mpr ⟨folder, (FileSystem.leads_above_iff hends).mpr hleads⟩
    simp only [FileSystem.makeDirs_of_isDir hdir]

/-- A site is open when its path ends in a name and nothing but files stands there. -/
theorem isOpen (hfree : fs.IsFree (folder ++ [last])) (hclear : fs.IsClear (folder ++ [stagedName last]))
    (hp : stepsOf f.path.text.toList = wayOf front ++ [.down last]) : (siteOf front last folder).Open f fs where
  path := hp
  staging := steps_staging hends hlast
  ne := Path.ne_cutSuffix_append last
  parent p hparent := by
    obtain rfl := Option.some.inj (hends.parent?.symm.trans hparent)
    cases htext : (Path.above front).text.isEmpty with
    | true => exact Or.inl rfl
    | false =>
      exact Or.inr ((FileSystem.isDir_iff_leads htext).mpr
        ⟨folder, (FileSystem.leads_above_iff hends).mpr hleads⟩)
  leads := by
    obtain ⟨fuel, time, hwalk⟩ := hleads
    refine ⟨time, FileSystem.walkFrom_of_fuel hwalk ?_⟩
    rw [FileSystem.walkFuel_eq, List.length_append, Nat.succ_mul]
    simp only [siteOf]
    omega
  free := hfree
  clear := hclear

omit hends hlast hleads in
/-- Settings are stored at an open site. -/
theorem allOrNothing_of_open {x : Site} (h : x.Open f fs) (s : Settings) : f.AllOrNothing s fs := by
  obtain ⟨fs₁, runnable, hwrite, hopen, -, hstaging⟩ := h.writeStaging s
  obtain ⟨fs₂, hreplace, hopen', hplace, -⟩ := hopen.replace hstaging s
  have hsave : f.save s fs = (.ok (), fs₂) := by
    rw [save, h.makeFolder s]
    simp only [hwrite, hreplace]
  rw [AllOrNothing, hsave]
  simp only [hopen'.load, hplace, kept_bytesOf]

/-- The file is not replaced where a directory stands, or where its path asks for one. -/
theorem exists_replace_eq_error {k : Nat} {bytes : ByteArray} {runnable : Bool}
    (hp : stepsOf f.path.text.toList = wayOf front ++ .down last :: List.replicate k .stay)
    (hplain : ∀ target, fs.entry? (folder ++ [last]) ≠ some (.link target))
    (hstaging : fs.entry? (folder ++ [stagedName last]) = some (.file bytes runnable))
    (hnot : k = 0 → ¬ fs.IsFree (folder ++ [last])) (s : Settings) :
    ∃ error, f.perform s .replace fs = .error error := by
  have hrename : ∃ c, fs.rename f.staging f.path = .error c := by
    have hsource : fs.walk f.staging false = .ok (.at (folder ++ [stagedName last]) (.file bytes runnable)) := by
      rw [hleads.walk_last (k := 0) (steps_staging hends hlast) (Or.inl ⟨rfl, rfl⟩), hstaging]
      rfl
    rw [FileSystem.rename, hsource, hleads.walk_last hp (Or.inr hplain)]
    cases he : fs.entry? (folder ++ [last]) with
    | none =>
      -- The path says that a directory is there.
      obtain ⟨k, rfl⟩ := Nat.exists_eq_add_one_of_ne_zero fun hk : k = 0 ↦
        hnot hk fun e he' ↦ by cases he.symm.trans he'
      rw [List.append_cons] at hp
      obtain ⟨c, hc⟩ : ∃ c, FileSystem.refusal? f.path (.file bytes runnable) (.absent folder last) = some c :=
        FileSystem.refusal?_of_stays hp bytes runnable
      exact ⟨c, by simp only [lastStop, hc]⟩
    | some e =>
      cases e with
      | link target => exact absurd he (hplain target)
      | file old oldRunnable =>
        have hk : k ≠ 0 := fun hk ↦ hnot hk fun e he' ↦ by
          obtain rfl := Option.some.inj (he.symm.trans he')
          exact ⟨_, _, rfl⟩
        exact ⟨.notDirectory, by simp only [lastStop, if_neg hk]⟩
      | dir time =>
        simp only [lastStop]
        cases FileSystem.refusal? f.path (.file bytes runnable) (.at (folder ++ [last]) (.dir time)) with
        | none => exact ⟨.isDirectory, rfl⟩
        | some c => exact ⟨c, rfl⟩
  obtain ⟨c, hrename⟩ := hrename
  exact ⟨.notReplaced f.path c, by simp only [perform, hrename]⟩

include htree in
/-- Where the folder of the file is there, settings are stored or what is loaded stays as it was. -/
theorem allOrNothing_of_folder (hplain : ∀ target, fs.entry? (folder ++ [last]) ≠ some (.link target))
    (hstaging : ∀ target, fs.entry? (folder ++ [stagedName last]) ≠ some (.link target)) (s : Settings) :
    f.AllOrNothing s fs := by
  have hmake := makeFolder_of_leads hends hleads s
  have hsteps := steps_staging hends hlast
  by_cases hdir : fs.isDirAt (folder ++ [stagedName last]) = true
  · exact allOrNothing_of_leads hmake (hsteps ▸ hleads.down hdir)
  have hclear : fs.IsClear (folder ++ [stagedName last]) := htree.isClear fun e he ↦ by
    cases e with
    | dir time => exact absurd (FileSystem.isDirAt_iff.mpr ⟨time, he⟩) hdir
    | link target => exact absurd he (hstaging target)
    | file bytes runnable => exact ⟨bytes, runnable, rfl⟩
  obtain ⟨k, hp⟩ := steps_path hends hlast
  by_cases hopen : k = 0 ∧ fs.IsFree (folder ++ [last])
  · obtain ⟨rfl, hfree⟩ := hopen
    exact allOrNothing_of_open (isOpen hends hlast hleads hfree hclear hp) s
  · -- The new settings are written beside the file, which changes nothing, and are not put in its place.
    obtain ⟨fs₁, runnable, hwrite, hkeeps, -, hentry, hsame⟩ := hleads.write hsteps hclear (bytesOf s)
    have hplace := hsame last (Path.ne_cutSuffix_append last)
    have hleads₁ := hleads.of_holds hkeeps.toHolds
    obtain ⟨error, hreplace⟩ :=
      exists_replace_eq_error hends hlast hleads₁ hp (fun target ↦ hplace ▸ hplain target)
      hentry (fun hk hfree ↦ hopen ⟨hk, fun e he ↦ hfree e (hplace.trans he)⟩) s
    have hsave : f.save s fs = (.error error, fs₁) := by
      have hwritten : f.perform s .writeStaging fs = .ok fs₁ := by
        rw [bytesOf] at hwrite
        simp only [perform, hwrite]
      rw [save, hmake]
      simp only [hwritten, hreplace, leftBy]
    rw [AllOrNothing, hsave]
    refine load_congr ?_
    rw [hleads₁.walk_last hp (Or.inr fun target ↦ hplace ▸ hplain target),
      hleads.walk_last hp (Or.inr hplain), hplace]

end Named

/-! ### All paths -/

/-- Where the folder of the file is there. -/
theorem allOrNothing_of_leads_above (htree : fs.IsTree) (hends : f.path.EndsIn front last)
    (hleads : fs.Leads (wayOf front) folder) (hpath : ¬ fs.IsLink f.path.bare)
    (hstaging : ¬ fs.IsLink f.staging) (s : Settings) : f.AllOrNothing s fs := by
  by_cases hlast : last = ['.', '.']
  · -- The path leads up from there.
    obtain ⟨time, hfolder⟩ := FileSystem.isDirAt_iff.mp hleads.isDirAt
    obtain ⟨k, hsteps⟩ := hends.steps
    have hup := (hleads.up (htree.isDirAt_dropLast hfolder)).stays k
    rw [stepOf, if_pos hlast, List.append_cons] at hsteps
    have hsame : f.staging = f.path := hends.withSuffix_of_dots hlast "json.tmp"
    rw [← hsteps, ← hsame] at hup
    exact allOrNothing_of_leads (makeFolder_of_leads hends hleads s) hup
  · have hlink {p : Path} {n : List Char} (hp : stepsOf p.text.toList = wayOf front ++ [.down n])
        (hnot : ¬ fs.IsLink p) (target : String) : fs.entry? (folder ++ [n]) ≠ some (.link target) := fun he ↦ by
      refine hnot ⟨folder ++ [n], target, ?_⟩
      rw [hleads.walk_last (k := 0) hp (Or.inl ⟨rfl, rfl⟩), he]
      rfl
    exact allOrNothing_of_folder hends hlast htree hleads (hlink (steps_bare hends hlast) hpath)
      (hlink (steps_staging hends hlast) hstaging) s

/-- Where the folder of the file is made. -/
theorem allOrNothing_of_made (hends : f.path.EndsIn front last) (hclimbs : fs.Climbs f.path)
    (hmake : fs.makeDirs (Path.above front) = .ok fs') (hmade : fs.Made fs' (wayOf front) folder) (s : Settings) :
    f.AllOrNothing s fs := by
  have hlast : last ≠ ['.', '.'] := by
    intro hlast
    obtain ⟨k, hsteps⟩ := hends.steps
    refine hclimbs.rises (wayOf front) ?_ hmade.missing
    rw [hsteps, stepOf, if_pos hlast]
    exact ⟨List.replicate k .stay, List.append_assoc ..⟩
  have hplain (n : List Char) (target : String) : fs'.entry? (folder ++ [n]) ≠ some (.link target) := fun he ↦ by
    cases (hmade.bare n).symm.trans he
  obtain ⟨k, hp⟩ := steps_path hends hlast
  -- Nothing is stored before the folder is made, nor directly after.
  have hload : f.load fs' = f.load fs := by
    rw [load_of_notFound, load_of_notFound]
    · rw [FileSystem.stat, hmade.missing.walk hp rfl]
    · rw [FileSystem.stat, hmade.leads.walk_last hp (Or.inr (hplain last)), hmade.bare last]
      rfl
  have hsave : f.save s fs = f.save s fs' := by
    refine save_of_makeFolder ?_ (makeFolder_of_leads hends hmade.leads s)
    simp only [perform, hends.parent?, hmake]
  have hsaved := allOrNothing_of_folder hends hlast hmade.tree hmade.leads (hplain last) (hplain _) s
  rw [AllOrNothing, hsave, ← hload]
  exact hsaved

/-- After settings were saved they are loaded, and what is loaded stays as it was when they could not be saved,
whichever of the steps failed. This holds where neither the path of the file nor that of the one beside it
names a link, and the path leads up only out of folders that are there. -/
theorem load_of_save (f : SettingsFile) (s : Settings) (fs : FileSystem) (htree : fs.IsTree)
    (hpath : ¬ fs.IsLink f.path.bare) (hstaging : ¬ fs.IsLink f.staging) (hclimbs : fs.Climbs f.path) :
    f.AllOrNothing s fs := by
  rcases f.path.stays_or_endsIn with ⟨⟨k, hstays⟩, hsuffix, hparent⟩ | ⟨front, last, hends⟩
  · -- The path names the folder where it begins.
    have hleads := (FileSystem.leads_nil fs).stays (k + 1)
    rw [List.nil_append, ← hstays] at hleads
    have hstaging : f.staging = f.path := hsuffix "json.tmp"
    have hmake : f.perform s .makeFolder fs = .ok fs := by
      simp only [perform]
      cases hp : f.path.parent? with
      | none => rfl
      | some p => simp only [FileSystem.makeDirs, FileSystem.makeDirsWith, hparent p hp, if_true]
    exact allOrNothing_of_leads hmake (hstaging ▸ hleads)
  · cases FileSystem.fares_above htree hends hclimbs.rises with
    | there folder _ hleads => exact allOrNothing_of_leads_above htree hends hleads hpath hstaging s
    | made fs' folder hmake hmade => exact allOrNothing_of_made hends hclimbs hmake hmade s
    | refused c hmake hleft =>
      have hsave : f.save s fs = (.error (.folderNotMade (Path.above front) c), fs) := by
        rw [save]
        simp only [perform, hends.parent?, hmake, leftBy, hleft]
      exact allOrNothing_of_unchanged hsave

/-- Settings are stored below the root, and a directory stands beside them. -/
def obstructed (stored : Settings) : FileSystem :=
  ⟨[(["settings.json".toList], .file (bytesOf stored) false), (["settings.json.tmp".toList], .dir 0)]⟩

theorem isTree_obstructed (stored : Settings) : (obstructed stored).IsTree where
  nodup := by
    change [["settings.json".toList], ["settings.json.tmp".toList]].Nodup
    decide
  ne_nil := by simp [obstructed]
  inside := by simp [obstructed, FileSystem.isDirAt, FileSystem.entry?]

/-- Settings that cannot be written beside those that are stored leave these as they are. -/
theorem load_of_save_obstructed :
    AllOrNothing ⟨⟨"/settings.json"⟩, .usual⟩ .usual (obstructed { Settings.usual with autoCheckout := false }) :=
  load_of_save ⟨⟨"/settings.json"⟩, .usual⟩ .usual (obstructed { Settings.usual with autoCheckout := false })
    (isTree_obstructed _) (by rintro ⟨place, target, h⟩; cases h) (by rintro ⟨place, target, h⟩; cases h)
    (FileSystem.climbs_of_not_infix (by decide))

/-- A file whose path leads into a folder and out of it again. -/
def roundabout : SettingsFile := ⟨⟨"/missing/../settings.json"⟩, .usual⟩

/-- A folder that is made for settings which are not stored after all can lead to others that are. -/
theorem not_allOrNothing_roundabout :
    ¬ ∀ f s fs, FileSystem.IsTree fs → ¬ fs.IsLink f.path.bare → ¬ fs.IsLink f.staging → AllOrNothing f s fs := by
  intro h
  have hbefore (stored : Settings) : roundabout.load (obstructed stored) = .ok .usual := rfl
  have hsave (stored : Settings) : roundabout.save .usual (obstructed stored) =
      (.error (.notWritten roundabout.staging .isDirectory),
        ⟨(obstructed stored).entries ++ [(["missing".toList], .dir FileSystem.usualTime)]⟩) := rfl
  have hafter (stored : Settings) : roundabout.load
      ⟨(obstructed stored).entries ++ [(["missing".toList], .dir FileSystem.usualTime)]⟩ = .ok stored := by
    rw [load_of_file rfl, kept_bytesOf]
  have hsaved := h roundabout .usual (obstructed { Settings.usual with autoCheckout := false })
    (isTree_obstructed _) (by rintro ⟨place, target, h⟩; cases h) (by rintro ⟨place, target, h⟩; cases h)
  rw [AllOrNothing, hsave] at hsaved
  simp only [hafter, hbefore] at hsaved
  exact absurd (congrArg Settings.autoCheckout (Except.ok.inj hsaved)) (by decide)

end SettingsFile

end CodeNav
