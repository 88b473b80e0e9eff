import CodeNav.Proofs.FileSystem.Ways
import CodeNav.Proofs.Repository.Checkout

/-!
# Places below a folder

A *plot* is a place that is reached from a folder by names. As long as the way to the folder is kept, and no
link stands on the way down, a walk to the place goes through the places above it one after the other: it
finds what stands there, or ends at the first place that is missing, or at a file. Making the folders above
the place makes those that are missing, unless there is a file on the way.

## Main definitions

* `FileSystem.Plot`: a folder, and names below it
* `FileSystem.Plot.Sound`: the way to the folder is kept, and no link stands on the way down
* `FileSystem.Plot.Raised`: the folders on the way down were made

## Main statements

* `FileSystem.Plot.Sound.walk_of_entry`, `FileSystem.Plot.Sound.walk_of_none`,
  `FileSystem.Plot.Sound.walk_of_file`: what a walk to a place on the way down finds
* `FileSystem.Plot.Sound.makeAbove_of_clear`, `FileSystem.Plot.Sound.makeAbove_of_file`: making the folders
  above the place
-/

namespace CodeNav.FileSystem

open CodeNav.Path (IsName)

variable {fs fs' fs'' : FileSystem} {q : Place} {e : Entry} {follow : Bool} {fuel : Nat} {n : List Char}
  {bytes : ByteArray} {runnable : Bool}

/-- The modification time of a directory. -/
def Entry.time? : Entry → Option Int
  | .dir time => some time
  | _ => none

/-- A place that is reached from a folder by names. -/
structure Plot where
  /-- The text of a path to the folder. -/
  front : List Char
  base : Place
  /-- The names of the folders above the place. -/
  above : List (List Char)
  last : List Char
  isName_above : ∀ n ∈ above, IsName n
  isName_last : IsName last

namespace Plot

variable {x : Plot} {l m tail : List (List Char)}

/-- All names that lead to the place. -/
def names (x : Plot) : List (List Char) := x.above ++ [x.last]

/-- The folder in which the place is. -/
def folder (x : Plot) : Place := x.base ++ x.above

/-- The place. -/
def place (x : Plot) : Place := x.base ++ x.names

theorem place_eq (x : Plot) : x.place = x.folder ++ [x.last] :=
  (List.append_assoc ..).symm

theorem place_ne_nil (x : Plot) : x.place ≠ [] := by
  simp [place_eq]

theorem above_prefix_names (x : Plot) : x.above <+: x.names := List.prefix_append ..

theorem isName (hl : l <+: x.names) : ∀ n ∈ l, IsName n := by
  intro n hn
  rcases List.mem_append.mp (hl.subset hn) with hn | hn
  · exact x.isName_above n hn
  · exact List.mem_singleton.mp hn ▸ x.isName_last

/-- The text of a path that leads from the folder down by names. -/
def textOf (x : Plot) (l : List (List Char)) : List Char := x.front ++ l.flatMap ('/' :: ·)

/-- A path that leads from the folder down by names. -/
def pathOf (x : Plot) (l : List (List Char)) : Path := ⟨String.ofList (x.textOf l)⟩

/-- The path to the place. -/
def path (x : Plot) : Path := x.pathOf x.names

theorem textOf_concat (x : Plot) (l : List (List Char)) (n : List Char) :
    x.textOf (l ++ [n]) = x.textOf l ++ '/' :: n := by
  simp [textOf]

theorem stepsOf_name (hn : IsName n) : stepsOf n = [.down n] := by
  simp [stepsOf, Text.splitOn_of_notMem hn.slash, hn.ne_nil, hn.ne_dot, hn.ne_dots]

/-- The steps of a path that leads down by names. -/
theorem stepsOf_pathOf (hl : l <+: x.names) :
    stepsOf (x.pathOf l).text.toList = stepsOf x.front ++ l.map .down := by
  rw [pathOf, String.toList_ofList]
  induction l using List.reverseRecOn with
  | nil => simp [textOf]
  | append_singleton l n ih =>
    have hn := stepsOf_name (isName hl n (by simp))
    rw [textOf_concat, stepsOf_append_slash, ih ((List.prefix_append _ _).trans hl), hn]
    simp

theorem isEmpty_pathOf (hne : l ≠ []) : (x.pathOf l).text.isEmpty = false := by
  obtain ⟨front, n, rfl⟩ := (List.eq_nil_or_concat' l).resolve_left hne
  rw [pathOf, textOf_concat, ← Bool.not_eq_true, String.isEmpty_iff]
  intro h
  have hchars := congrArg String.toList h
  simp at hchars

/-! ### Paths above -/

/-- A text that ends in a name ends in nothing that says nothing. -/
theorem dropIdleEnd_name (hn : IsName n) (cs : List Char) :
    Path.dropIdleEnd (n.reverse ++ '/' :: cs) = n.reverse ++ '/' :: cs := by
  obtain ⟨c, back, hback⟩ := List.exists_cons_of_ne_nil (mt List.reverse_eq_nil_iff.mp hn.ne_nil)
  have hslash : '/' ∉ c :: back := hback ▸ fun h ↦ hn.slash (List.mem_reverse.mp h)
  rw [hback]
  have hc : c ≠ '/' := fun h ↦ hslash (h ▸ List.mem_cons_self)
  cases back with
  | nil =>
    have hdot : c ≠ '.' := by
      rintro rfl
      exact hn.ne_dot (List.reverse_eq_iff.mp hback)
    rw [List.cons_append, List.nil_append, Path.dropIdleEnd]
    all_goals simp_all
  | cons d back =>
    have hd : d ≠ '/' := fun h ↦ hslash (h ▸ List.mem_cons_of_mem _ List.mem_cons_self)
    rw [List.cons_append, List.cons_append, Path.dropIdleEnd]
    all_goals simp_all

/-- A path that leads down by names ends in the last one. -/
theorem components_pathOf_concat (hn : IsName n) :
    (x.pathOf (l ++ [n])).components = Path.componentsOf (x.textOf l ++ ['/']) ++ [.normal n] := by
  rw [Path.components, pathOf, String.toList_ofList, textOf_concat]
  rcases eq_or_ne (x.textOf l) [] with hnil | hne
  · rw [hnil, List.nil_append, List.nil_append, Path.componentsOf_slash, Path.componentsOf_slash,
      hn.filterMap_splitOn]
    rfl
  · rw [Path.componentsOf_append_slash hne, Path.componentsOf_append_slash hne, hn.filterMap_splitOn]
    simp [Text.splitOn, Path.Component.ofPiece?]

/-- A path that leads down by names has at least as many components. -/
theorem length_le_components (hl : l <+: x.names) : l.length ≤ (x.pathOf l).components.length := by
  have hall : l.length ≤ (Path.componentsOf (x.textOf l)).length ∧
      l.length ≤ (Path.componentsOf (x.textOf l ++ ['/'])).length := by
    induction l using List.reverseRecOn with
    | nil => exact ⟨Nat.zero_le _, Nat.zero_le _⟩
    | append_singleton l n ih =>
      have hlast := components_pathOf_concat (x := x) (l := l) (isName hl n (by simp))
      rw [Path.components, pathOf, String.toList_ofList] at hlast
      have hmore := (ih ((List.prefix_append _ _).trans hl)).2
      have hne : x.textOf (l ++ [n]) ≠ [] := by simp [textOf_concat]
      refine ⟨?_, ?_⟩
      · rw [hlast]
        simpa using hmore
      · rw [Path.componentsOf_append_slash hne, hlast]
        simp only [List.length_append, List.length_singleton]
        omega
  rw [Path.components, pathOf, String.toList_ofList]
  exact hall.1

/-- The path above one that leads down by names. -/
theorem parent?_pathOf_concat (hn : IsName n) : (x.pathOf (l ++ [n])).parent? =
    some ⟨String.ofList (Path.dropIdleEnd ('/' :: (x.textOf l).reverse)).reverse⟩ := by
  have hreverse : (x.textOf (l ++ [n])).reverse = n.reverse ++ '/' :: (x.textOf l).reverse := by
    rw [textOf_concat]
    simp
  have hslash : '/' ∉ n.reverse := fun h ↦ hn.slash (List.mem_reverse.mp h)
  have hdrop : (n.reverse ++ '/' :: (x.textOf l).reverse).dropWhile (· ≠ '/') =
      '/' :: (x.textOf l).reverse := by
    rw [List.dropWhile_append_of_pos]
    · simp
    · intro c hc
      simpa using fun h : c = '/' ↦ hslash (h ▸ hc)
  have hlast : (x.pathOf (l ++ [n])).components.getLast? = some (.normal n) := by
    rw [components_pathOf_concat hn, List.getLast?_concat]
  simp only [Path.parent?, hlast]
  rw [pathOf, String.toList_ofList, hreverse, dropIdleEnd_name hn, hdrop]

/-- The path above one that leads down by several names. -/
theorem parent?_pathOf (hl : l ++ [n] <+: x.names) (hne : l ≠ []) :
    (x.pathOf (l ++ [n])).parent? = some (x.pathOf l) := by
  have hn := isName hl n (by simp)
  obtain ⟨front, m, rfl⟩ := (List.eq_nil_or_concat' l).resolve_left hne
  have hreverse : (x.textOf (front ++ [m])).reverse = m.reverse ++ '/' :: (x.textOf front).reverse := by
    rw [textOf_concat]
    simp
  have hm : IsName m := isName hl m (by simp)
  have hdrop : Path.dropIdleEnd ('/' :: (m.reverse ++ '/' :: (x.textOf front).reverse)) =
      m.reverse ++ '/' :: (x.textOf front).reverse := by
    rw [Path.dropIdleEnd, dropIdleEnd_name hm]
    simp
  rw [parent?_pathOf_concat hn, hreverse, hdrop, ← hreverse, List.reverse_reverse]
  rfl

/-- The path to the place ends in a name. -/
theorem lastStep?_path (x : Plot) : lastStep? x.path = some (.down x.last) := by
  have hsteps : stepsOf x.path.text.toList = (stepsOf x.front ++ x.above.map .down) ++ [.down x.last] := by
    rw [path, stepsOf_pathOf (List.prefix_refl x.names), names, List.map_append, List.append_assoc]
    rfl
  exact lastStep?_of_down hsteps

/-! ### What stands on the way down -/

/-- The way to the folder is kept, and on the way down there are no links, and nothing that is not in a
directory. -/
structure Sound (x : Plot) (fs : FileSystem) : Prop where
  leads : fs.Leads (stepsOf x.front) x.base
  noLink : ∀ l, l <+: x.names → ∀ target, fs.entry? (x.base ++ l) ≠ some (.link target)
  tree : ∀ l n e, l ++ [n] <+: x.names → fs.entry? (x.base ++ (l ++ [n])) = some e →
    fs.isDirAt (x.base ++ l) = true

/-- No file stands on the way down. -/
def Clear (x : Plot) (fs : FileSystem) (l : List (List Char)) : Prop :=
  ∀ m, m <+: l → ∀ bytes runnable, fs.entry? (x.base ++ m) ≠ some (.file bytes runnable)

/-- The folders on the way down were made, where they were missing. -/
structure Raised (x : Plot) (l : List (List Char)) (fs fs' : FileSystem) : Prop where
  made : ∀ m, m <+: l → fs'.isDirAt (x.base ++ m) = true ∧
    (fs.entry? (x.base ++ m) = none ∨ fs.isDirAt (x.base ++ m) = true)
  same : ∀ q, (∀ m, m <+: l → q ≠ x.base ++ m) → fs'.entry? q = fs.entry? q

theorem prefix_concat {l m : List (List Char)} : m <+: l ++ [n] ↔ m <+: l ∨ m = l ++ [n] := by
  rw [List.prefix_concat_iff, or_comm]

/-- The place of one name more is not on the way down. -/
theorem not_prefix_concat (n : List Char) : ∀ m, m <+: l → x.base ++ (l ++ [n]) ≠ x.base ++ m := by
  intro m hm heq
  rw [← List.append_cancel_left heq] at hm
  exact absurd hm.length_le (by simp)

theorem not_prefix_of (hml : ¬ m <+: l) : ∀ m', m' <+: l → x.base ++ m ≠ x.base ++ m' := by
  intro m' hm' heq
  exact hml (List.append_cancel_left heq ▸ hm')

namespace Raised

/-- Folders that are there need not be made. -/
theorem refl (h : ∀ m, m <+: l → fs.isDirAt (x.base ++ m) = true) : x.Raised l fs fs :=
  ⟨fun m hm ↦ ⟨h m hm, Or.inr (h m hm)⟩, fun _ _ ↦ rfl⟩

/-- A folder that is made in the last one. -/
theorem add (h : x.Raised l fs fs') (hnone : fs'.entry? (x.base ++ (l ++ [n])) = none) :
    x.Raised (l ++ [n]) fs (fs'.add (x.base ++ l) n (.dir usualTime)) := by
  have hplace : x.base ++ l ++ [n] ≠ [] := by simp
  have hentry (q : Place) : entry? (fs'.add (x.base ++ l) n (.dir usualTime)) q =
      if q = x.base ++ (l ++ [n]) ∨ (q = x.base ++ l ∧ x.base ++ l ≠ []) then some (.dir usualTime)
      else fs'.entry? q := by
    have hdir : (fs'.put (x.base ++ l ++ [n]) (.dir usualTime)).isDirAt (x.base ++ l) = true := by
      rw [isDirAt, entry?_put hplace, if_neg (by simp), ← isDirAt]
      exact (h.made l (List.prefix_refl l)).1
    rw [FileSystem.add, entry?_touch, entry?_put hplace, hdir, List.append_assoc]
    by_cases hq : q = x.base ++ l <;> by_cases hq' : q = x.base ++ (l ++ [n]) <;> simp [hq, hq']
  refine ⟨fun m hm ↦ ?_, fun q hq ↦ ?_⟩
  · rcases prefix_concat.mp hm with hm | rfl
    · refine ⟨?_, (h.made m hm).2⟩
      rw [isDirAt_iff, hentry]
      split
      · exact ⟨_, rfl⟩
      · exact isDirAt_iff.mp (h.made m hm).1
    · refine ⟨?_, Or.inl ?_⟩
      · rw [isDirAt, hentry, if_pos (Or.inl rfl)]
      · rwa [← h.same _ (not_prefix_concat n)]
  · rw [hentry, if_neg, h.same q fun m hm ↦ hq m (hm.trans (List.prefix_append ..))]
    rintro (rfl | ⟨rfl, -⟩)
    · exact hq _ (List.prefix_refl _) rfl
    · exact hq _ (List.prefix_append ..) rfl

variable (h : x.Raised l fs fs')
include h

/-- Directories and links stay where they are when folders are made. -/
theorem holds : fs.Holds fs' := by
  have hkeep (q : Place) (hq : fs.isDirAt q = true) : fs'.isDirAt q = true := by
    by_cases hm : ∃ m, m <+: l ∧ q = x.base ++ m
    · obtain ⟨m, hm, rfl⟩ := hm
      exact (h.made m hm).1
    · rwa [isDirAt, h.same q fun m hml hqm ↦ hm ⟨m, hml, hqm⟩, ← isDirAt]
  refine ⟨fun q time hq ↦ isDirAt_iff.mp (hkeep q (isDirAt_iff.mpr ⟨time, hq⟩)), fun q target hq ↦ ?_⟩
  rw [h.same q, hq]
  rintro m hm rfl
  rcases (h.made m hm).2 with hnone | hdir
  · cases hnone.symm.trans hq
  · obtain ⟨time, hdir⟩ := isDirAt_iff.mp hdir
    cases hdir.symm.trans hq

theorem isDirAt (hq : fs.isDirAt q = true) : fs'.isDirAt q = true := by
  obtain ⟨time, hq⟩ := isDirAt_iff.mp hq
  exact isDirAt_iff.mpr (h.holds.dir q time hq)

/-- The way down is as sound as before when folders on it are made. -/
theorem sound (hs : x.Sound fs) : x.Sound fs' where
  leads := hs.leads.of_holds h.holds
  noLink m hm target hlink := by
    by_cases hml : m <+: l
    · obtain ⟨time, hdir⟩ := isDirAt_iff.mp (h.made m hml).1
      cases hdir.symm.trans hlink
    · rw [h.same _ (not_prefix_of hml)] at hlink
      exact hs.noLink m hm target hlink
  tree m n e hm he := by
    by_cases hml : m ++ [n] <+: l
    · exact (h.made m ((List.prefix_append ..).trans hml)).1
    · rw [h.same _ (not_prefix_of hml)] at he
      exact h.isDirAt (hs.tree m n e hm he)

end Raised

namespace Sound

variable (h : x.Sound fs)
include h

/-- What stands on the way down stands in directories. -/
theorem isDirAt_of_entry (hl : l ++ tail <+: x.names) (htail : tail ≠ [])
    (he : fs.entry? (x.base ++ (l ++ tail)) = some e) : fs.isDirAt (x.base ++ l) = true := by
  induction tail using List.reverseRecOn generalizing e with
  | nil => exact absurd rfl htail
  | append_singleton tail n ih =>
    rw [← List.append_assoc] at hl
    have hdir := h.tree _ n e hl (by rwa [List.append_assoc])
    rcases eq_or_ne tail [] with rfl | hne
    · simpa using hdir
    · obtain ⟨time, hdir⟩ := isDirAt_iff.mp hdir
      exact ih ((List.prefix_append _ _).trans hl) hne hdir

theorem isDirAt_of_isDirAt (hl : l ++ tail <+: x.names) (hdir : fs.isDirAt (x.base ++ (l ++ tail)) = true) :
    fs.isDirAt (x.base ++ l) = true := by
  rcases eq_or_ne tail [] with rfl | hne
  · simpa using hdir
  · obtain ⟨time, hdir⟩ := isDirAt_iff.mp hdir
    exact h.isDirAt_of_entry hl hne hdir

/-- The way to a directory on the way down. -/
theorem leads_down (hl : l <+: x.names) (hdir : fs.isDirAt (x.base ++ l) = true) :
    fs.Leads (stepsOf x.front ++ l.map .down) (x.base ++ l) := by
  induction l using List.reverseRecOn with
  | nil => simpa using h.leads
  | append_singleton l n ih =>
    have hleads := ih ((List.prefix_append _ _).trans hl) (h.isDirAt_of_isDirAt hl hdir)
    have hdown := hleads.down (n := n) (by rwa [List.append_assoc])
    simpa using hdown

/-- The walk to a place in a directory. -/
theorem walk_of_isDirAt (hl : l ++ [n] <+: x.names) (hdir : fs.isDirAt (x.base ++ l) = true) :
    fs.walk (x.pathOf (l ++ [n])) follow = .ok ((fs.entry? (x.base ++ (l ++ [n]))).elim
      (.absent (x.base ++ l) n) (.at (x.base ++ (l ++ [n])))) := by
  have hsteps : stepsOf (x.pathOf (l ++ [n])).text.toList =
      stepsOf x.front ++ l.map .down ++ [.down n] := by
    rw [stepsOf_pathOf hl]
    simp
  obtain ⟨fuel, links, hfuel, hwalk⟩ := (h.leads_down ((List.prefix_append _ _).trans hl) hdir).walk hsteps
    (by simp) (isEmpty_pathOf (by simp))
  obtain ⟨time, hdir⟩ := isDirAt_iff.mp hdir
  obtain ⟨fuel, rfl⟩ : ∃ k, fuel = k + 2 := ⟨fuel - 2, by simp at hfuel; omega⟩
  rw [hwalk, walkFrom, hdir, ← List.append_assoc]
  cases he : fs.entry? (x.base ++ l ++ [n]) with
  | none => simp only [he, List.all_nil, if_true, Option.elim_none]
  | some e =>
    cases e with
    | dir t => simp only [he, walkFrom, Option.elim_some]
    | file bytes runnable => simp only [he, if_true, Option.elim_some]
    | link target =>
      rw [List.append_assoc] at he
      exact absurd he (h.noLink _ hl target)

/-- The walk to a place below one that is no directory. -/
theorem walk_of_not_isDirAt (hl : l ++ n :: tail <+: x.names) (htail : tail ≠ [])
    (hdir : fs.isDirAt (x.base ++ l) = true) (hnot : fs.isDirAt (x.base ++ (l ++ [n])) = false) :
    fs.walk (x.pathOf (l ++ n :: tail)) follow =
      .error (if fs.entry? (x.base ++ (l ++ [n])) = none then .notFound else .notDirectory) := by
  have hsteps : stepsOf (x.pathOf (l ++ n :: tail)).text.toList =
      stepsOf x.front ++ l.map .down ++ .down n :: tail.map .down := by
    rw [stepsOf_pathOf hl]
    simp
  have hprefix : l ++ [n] <+: x.names := by
    refine List.IsPrefix.trans ?_ hl
    rw [List.append_cons l n tail]
    exact List.prefix_append _ _
  obtain ⟨fuel, links, hfuel, hwalk⟩ := (h.leads_down ((List.prefix_append _ _).trans hl) hdir).walk hsteps
    (by simp) (isEmpty_pathOf (by simp))
  obtain ⟨time, hdir⟩ := isDirAt_iff.mp hdir
  obtain ⟨fuel, rfl⟩ : ∃ k, fuel = k + 1 := ⟨fuel - 1, by omega⟩
  obtain ⟨m, tail, rfl⟩ := List.exists_cons_of_ne_nil htail
  simp only [hwalk, walkFrom, hdir]
  rw [← List.append_assoc]
  cases he : fs.entry? (x.base ++ l ++ [n]) with
  | none => simp only [List.map_cons, List.all_cons]; rfl
  | some e =>
    cases e with
    | dir t =>
      rw [← List.append_assoc, isDirAt, he] at hnot
      cases hnot
    | file bytes runnable => simp
    | link target =>
      rw [List.append_assoc] at he
      exact absurd he (h.noLink _ hprefix target)

/-- Either a place on the way down is in a directory, or there is a last directory above it. -/
theorem exists_last (hl : l <+: x.names) (hne : l ≠ []) :
    (∃ front n, l = front ++ [n] ∧ fs.isDirAt (x.base ++ front) = true) ∨
      ∃ front n tail, l = front ++ n :: tail ∧ tail ≠ [] ∧ fs.isDirAt (x.base ++ front) = true ∧
        fs.isDirAt (x.base ++ (front ++ [n])) = false := by
  induction l using List.reverseRecOn with
  | nil => exact absurd rfl hne
  | append_singleton l n ih =>
    cases hdir : fs.isDirAt (x.base ++ l) with
    | true => exact Or.inl ⟨l, n, rfl, hdir⟩
    | false =>
      have hnil : l ≠ [] := by
        rintro rfl
        simp [h.leads.isDirAt] at hdir
      right
      rcases ih ((List.prefix_append _ _).trans hl) hnil with ⟨front, m, rfl, hfront⟩ |
        ⟨front, m, tail, rfl, htail, hfront, hm⟩
      · exact ⟨front, m, [n], by simp, by simp, hfront, hdir⟩
      · exact ⟨front, m, tail ++ [n], by simp, by simp, hfront, hm⟩

/-! ### What a walk down finds -/

/-- A walk to a place on the way down finds what stands there. -/
theorem walk_of_entry (hl : l <+: x.names) (hne : l ≠ []) (he : fs.entry? (x.base ++ l) = some e) :
    fs.walk (x.pathOf l) follow = .ok (.at (x.base ++ l) e) := by
  obtain ⟨front, n, rfl⟩ := (List.eq_nil_or_concat' l).resolve_left hne
  rw [h.walk_of_isDirAt hl (h.tree front n e hl he), he, Option.elim_some]

/-- A walk to a place below a file ends there. -/
theorem walk_of_file (hl : l ++ tail <+: x.names) (htail : tail ≠ [])
    (he : fs.entry? (x.base ++ l) = some (.file bytes runnable)) :
    fs.walk (x.pathOf (l ++ tail)) follow = .error .notDirectory := by
  have hnot : fs.isDirAt (x.base ++ l) = false := by simp [isDirAt, he]
  have hne : l ≠ [] := by
    rintro rfl
    simp [h.leads.isDirAt] at hnot
  obtain ⟨front, n, rfl⟩ := (List.eq_nil_or_concat' l).resolve_left hne
  have hdir := h.tree front n _ ((List.prefix_append ..).trans hl) he
  have hwalk : fs.walk _ follow = _ := h.walk_of_not_isDirAt (by simpa using hl) htail hdir hnot
  simpa [he] using hwalk

/-- A walk to a place where nothing stands, and no file above it, ends where something is missing: it is the
place itself, if it is in a directory. -/
theorem walk_of_none (hl : l ++ [n] <+: x.names) (hnone : fs.entry? (x.base ++ (l ++ [n])) = none)
    (hclear : x.Clear fs l) : fs.walk (x.pathOf (l ++ [n])) follow =
      if fs.isDirAt (x.base ++ l) = true then .ok (.absent (x.base ++ l) n) else .error .notFound := by
  split
  · rename_i hdir
    rw [h.walk_of_isDirAt hl hdir, hnone, Option.elim_none]
  · rename_i hnot
    rcases h.exists_last hl (by simp) with ⟨front, k, heq, hdir⟩ | ⟨front, k, tail, heq, htail, hdir, hfirst⟩
    · obtain ⟨rfl, -⟩ := List.append_singleton_inj.mp heq
      exact absurd hdir hnot
    · have hpre : front ++ [k] <+: l := by
        obtain ⟨tail, c, rfl⟩ := (List.eq_nil_or_concat' tail).resolve_left htail
        have hl : l = front ++ k :: tail := by
          have heq : l ++ [n] = front ++ k :: tail ++ [c] := by simpa using heq
          exact (List.append_singleton_inj.mp heq).1
        rw [hl, List.append_cons front k tail]
        exact List.prefix_append ..
      have hmissing : fs.entry? (x.base ++ (front ++ [k])) = none := by
        cases hk : fs.entry? (x.base ++ (front ++ [k])) with
        | none => rfl
        | some e =>
          cases e with
          | dir t => simp [isDirAt, hk] at hfirst
          | file bytes runnable => exact absurd hk (hclear _ hpre bytes runnable)
          | link target =>
            exact absurd hk (h.noLink _ (hpre.trans ((List.prefix_append ..).trans hl)) target)
      rw [heq, h.walk_of_not_isDirAt (heq ▸ hl) htail hdir hfirst, if_pos hmissing]

/-! ### What is done at the place -/

theorem walk_path_of_entry (he : fs.entry? x.place = some e) :
    fs.walk x.path follow = .ok (.at x.place e) :=
  h.walk_of_entry (List.prefix_refl _) (by simp [names]) he

theorem walk_path_of_clear (hnone : fs.entry? x.place = none) (hclear : x.Clear fs x.above) :
    fs.walk x.path follow =
      if fs.isDirAt x.folder = true then .ok (.absent x.folder x.last) else .error .notFound :=
  h.walk_of_none (List.prefix_refl _) hnone hclear

theorem walk_path_of_not_clear (hfile : ¬ x.Clear fs x.above) :
    fs.walk x.path follow = .error .notDirectory := by
  simp only [Clear, not_forall, ne_eq, not_not] at hfile
  obtain ⟨m, ⟨tail, hm⟩, bytes, runnable, hfile⟩ := hfile
  have hnames : x.names = m ++ (tail ++ [x.last]) := by rw [names, ← hm, List.append_assoc]
  rw [path, hnames]
  exact h.walk_of_file (hnames ▸ List.prefix_refl _) (by simp) hfile

/-- Something is at the path of a plot when something stands at its place. -/
theorem present_path : fs.present x.path = (fs.entry? x.place).isSome := by
  rw [present, stat]
  cases he : fs.entry? x.place with
  | some e =>
    rw [h.walk_path_of_entry he]
    rfl
  | none =>
    by_cases hclear : x.Clear fs x.above
    · rw [h.walk_path_of_clear he hclear]
      cases fs.isDirAt x.folder <;> rfl
    · rw [h.walk_path_of_not_clear hclear]
      rfl

theorem dirTime?_path : fs.dirTime? x.path = (fs.entry? x.place).bind Entry.time? := by
  rw [dirTime?, stat]
  cases he : fs.entry? x.place with
  | some e =>
    rw [h.walk_path_of_entry he]
    cases e <;> rfl
  | none =>
    by_cases hclear : x.Clear fs x.above
    · rw [h.walk_path_of_clear he hclear]
      cases fs.isDirAt x.folder <;> rfl
    · rw [h.walk_path_of_not_clear hclear]
      rfl

/-- A directory is removed with all that is in it. -/
theorem removeTree_of_isDirAt (hdir : fs.isDirAt x.place = true) :
    fs.removeTree x.path = (.ok (), fs.eraseTree x.place) := by
  obtain ⟨time, he⟩ := isDirAt_iff.mp hdir
  rw [removeTree, h.walk_path_of_entry he]
  simp only [lastStep?_path]

/-- Nothing else is removed. -/
theorem removeTree_of_not_isDirAt (hdir : fs.isDirAt x.place = false) : ∃ cause,
    fs.removeTree x.path = (.error cause, fs) ∧
      ((cause = .notFound ∧ fs.entry? x.place = none ∧ x.Clear fs x.above) ∨
        (cause = .notDirectory ∧ (fs.entry? x.place ≠ none ∨ ¬ x.Clear fs x.above))) := by
  cases he : fs.entry? x.place with
  | some e =>
    cases e with
    | dir time => simp [isDirAt, he] at hdir
    | link target => exact absurd he (h.noLink _ (List.prefix_refl _) target)
    | file bytes runnable =>
      refine ⟨_, ?_, Or.inr ⟨rfl, Or.inl (by simp)⟩⟩
      rw [removeTree, h.walk_path_of_entry he]
  | none =>
    by_cases hclear : x.Clear fs x.above
    · refine ⟨_, ?_, Or.inl ⟨rfl, rfl, hclear⟩⟩
      rw [removeTree, h.walk_path_of_clear he hclear]
      cases fs.isDirAt x.folder <;> rfl
    · refine ⟨_, ?_, Or.inr ⟨rfl, Or.inr hclear⟩⟩
      rw [removeTree, h.walk_path_of_not_clear hclear]

/-! ### Making folders -/

theorem makeDir_of_isDirAt (hl : l ++ [n] <+: x.names) (hdir : fs.isDirAt (x.base ++ l) = true)
    (hnone : fs.entry? (x.base ++ (l ++ [n])) = none) :
    fs.makeDir (x.pathOf (l ++ [n])) = .ok (fs.add (x.base ++ l) n (.dir usualTime)) := by
  have hsteps : stepsOf (x.pathOf (l ++ [n])).text.toList = (stepsOf x.front ++ l.map .down) ++ [.down n] := by
    rw [stepsOf_pathOf hl, List.map_append, List.append_assoc]
    rfl
  rw [makeDir, h.walk_of_isDirAt hl hdir, hnone, lastStep?_of_down hsteps]
  rfl

/-- Folders are made where they are missing, if no file is in the way. -/
theorem makeDirsWith_of_clear (hl : l <+: x.names) (hne : l ≠ []) (hclear : x.Clear fs l)
    (hfuel : l.length < fuel) :
    ∃ fs', fs.makeDirsWith fuel (x.pathOf l) = .ok fs' ∧ x.Raised l fs fs' := by
  induction l using List.reverseRecOn generalizing fuel with
  | nil => exact absurd rfl hne
  | append_singleton l n ih =>
    obtain ⟨fuel, rfl⟩ := Nat.exists_eq_add_one_of_ne_zero (Nat.ne_of_gt (Nat.zero_lt_of_lt hfuel))
    have hpre : l <+: x.names := (List.prefix_append ..).trans hl
    have hempty : (x.pathOf (l ++ [n])).text.isEmpty = false := isEmpty_pathOf (by simp)
    have hall (hdir : fs.isDirAt (x.base ++ l) = true) (m : List (List Char)) (hm : m <+: l) :
        fs.isDirAt (x.base ++ m) = true := by
      obtain ⟨tail, rfl⟩ := hm
      exact h.isDirAt_of_isDirAt hpre hdir
    cases he : fs.entry? (x.base ++ (l ++ [n])) with
    | some e =>
      -- What stands there is a directory.
      have hdir : fs.isDirAt (x.base ++ (l ++ [n])) = true := by
        cases e with
        | dir t => simp [isDirAt, he]
        | file bytes runnable => exact absurd he (hclear _ (List.prefix_refl _) bytes runnable)
        | link target => exact absurd he (h.noLink _ hl target)
      have hisDir : fs.isDir (x.pathOf (l ++ [n])) = true := by
        obtain ⟨t, ht⟩ := isDirAt_iff.mp hdir
        rw [isDir, stat, h.walk_of_entry hl (by simp) ht]
      refine ⟨fs, ?_, .refl fun m hm ↦ ?_⟩
      · rw [makeDirsWith, makeDir, h.walk_of_entry hl (by simp) he]
        simp [hempty, hisDir]
      · rcases prefix_concat.mp hm with hm | rfl
        · exact hall (h.tree l n e hl he) m hm
        · exact hdir
    | none =>
      have hclear : x.Clear fs l := fun m hm ↦ hclear m (hm.trans (List.prefix_append ..))
      cases hdir : fs.isDirAt (x.base ++ l) with
      | true =>
        refine ⟨_, ?_, (Raised.refl (hall hdir)).add he⟩
        rw [makeDirsWith, h.makeDir_of_isDirAt hl hdir he]
        simp [hempty]
      | false =>
        have hnil : l ≠ [] := by
          rintro rfl
          simp [h.leads.isDirAt] at hdir
        have hfuel : l.length < fuel := by simp at hfuel; omega
        obtain ⟨fs₁, hmake, hraised⟩ := ih hpre hnil hclear hfuel
        have hnone : fs₁.entry? (x.base ++ (l ++ [n])) = none := by
          rw [hraised.same _ (not_prefix_concat n), he]
        refine ⟨_, ?_, hraised.add hnone⟩
        have hagain := (hraised.sound h).makeDir_of_isDirAt hl (hraised.made l (List.prefix_refl l)).1 hnone
        have hfirst : fs.makeDir (x.pathOf (l ++ [n])) = .error .notFound := by
          rw [makeDir, h.walk_of_none hl he hclear, if_neg (by simp [hdir])]
        rw [makeDirsWith, hfirst]
        simp [hempty, parent?_pathOf hl hnil, hmake, hagain]

/-- No folders are made below a file, or in its place. -/
theorem makeDirs_of_file (hl : l ++ tail <+: x.names)
    (he : fs.entry? (x.base ++ l) = some (.file bytes runnable)) : fs.makeDirs (x.pathOf (l ++ tail)) =
      .error (if tail = [] then .alreadyExists else .notDirectory) := by
  have hne : l ++ tail ≠ [] := by
    rintro heq
    obtain ⟨rfl, -⟩ := List.append_eq_nil_iff.mp heq
    have hbase := h.leads.isDirAt
    rw [List.append_nil] at he
    simp [isDirAt, he] at hbase
  have hempty : (x.pathOf (l ++ tail)).text.isEmpty = false := isEmpty_pathOf hne
  rw [makeDirs, makeDirsWith, hempty]
  by_cases htail : tail = []
  · subst htail
    rw [List.append_nil] at hl hne ⊢
    have hdir : fs.isDir (x.pathOf l) = false := by
      rw [isDir, stat, h.walk_of_entry hl hne he]
    rw [makeDir, h.walk_of_entry hl hne he]
    simp [hdir]
  · have hdir : fs.isDir (x.pathOf (l ++ tail)) = false := by
      rw [isDir, stat, h.walk_of_file hl htail he]
    rw [makeDir, h.walk_of_file hl htail he]
    simp [hdir, htail]

/-- The folders above the place are made where they are missing, if no file is in the way. -/
theorem makeAbove_of_clear (hclear : x.Clear fs x.above) :
    ∃ p fs', x.path.parent? = some p ∧ fs.makeDirs p = .ok fs' ∧ x.Raised x.above fs fs' := by
  rcases eq_or_ne x.above [] with hnil | hne
  · refine ⟨_, fs, parent?_pathOf_concat x.isName_last, ?_, ?_⟩
    · have htext : x.textOf x.above = x.front := by simp [textOf, hnil]
      rw [htext]
      exact h.leads.makeDirs
    · refine Raised.refl fun m hm ↦ ?_
      obtain rfl : m = [] := by simpa [hnil] using hm
      simpa using h.leads.isDirAt
  · obtain ⟨fs', hmake, hraised⟩ := h.makeDirsWith_of_clear x.above_prefix_names hne hclear
      (Nat.lt_succ_of_le (length_le_components x.above_prefix_names))
    exact ⟨_, fs', parent?_pathOf (List.prefix_refl _) hne, hmake, hraised⟩

/-- The folders above the place are not made if a file is in the way. -/
theorem makeAbove_of_file (hl : l ++ tail = x.above)
    (he : fs.entry? (x.base ++ l) = some (.file bytes runnable)) :
    ∃ p, x.path.parent? = some p ∧
      fs.makeDirs p = .error (if tail = [] then .alreadyExists else .notDirectory) := by
  have hne : x.above ≠ [] := by
    intro hnil
    obtain ⟨rfl, -⟩ := List.append_eq_nil_iff.mp (hl.trans hnil)
    have hbase := h.leads.isDirAt
    rw [List.append_nil] at he
    simp [isDirAt, he] at hbase
  refine ⟨_, parent?_pathOf (List.prefix_refl _) hne, ?_⟩
  rw [← hl]
  exact h.makeDirs_of_file (hl ▸ x.above_prefix_names) he

end Sound

end Plot

end CodeNav.FileSystem
