import CodeNav.Proofs.FileSystem.Endings

/-!
# Making folders that are missing

A way that does not lead to a folder is *blocked*, for a cause that every walk fails with which goes on from
there. When folders are made along a path, this fails at the first of them that can neither be found nor made,
and nothing has been made then, unless the path leads up again out of a folder that was missing.

## Main definitions

* `FileSystem.IsTree`: what stands anywhere stands in a directory
* `FileSystem.Blocks`: a way is blocked
* `FileSystem.Climbs`: a way leads up out of folders that are there
* `FileSystem.Made`, `FileSystem.Fares`: folders were made along a way, and what becomes of them

## Main statements

* `FileSystem.leads_or_blocks`: a way leads to a folder or is blocked
* `FileSystem.fares_makeDirsWith`: what becomes of the folders along a path
-/

namespace CodeNav.FileSystem

variable {fs fs' : FileSystem} {way rest : List Step} {folder place here q : Place} {e : Entry} {c c' : Cause}
  {follow : Bool} {fuel fuel' links : Nat} {n : List Char} {p : Path}

/-! ### Trees -/

/-- Everything that stands anywhere stands in a directory, and nothing else stands in the same place. -/
structure IsTree (fs : FileSystem) : Prop where
  nodup : (fs.entries.map Prod.fst).Nodup
  ne_nil : ∀ x ∈ fs.entries, x.1 ≠ []
  inside : ∀ x ∈ fs.entries, fs.isDirAt x.1.dropLast = true

theorem mem_of_entry?_eq (h : fs.entry? q = some e) (hq : q ≠ []) : (q, e) ∈ fs.entries := by
  rw [ entry?, if_neg hq] at h
  exact mem_of_go h

theorem go_of_mem {entries : List (Place × Entry)} (hnodup : (entries.map Prod.fst).Nodup)
    (h : (q, e) ∈ entries) : entry?.go q entries = some e := by
  induction entries with
  | nil => cases h
  | cons x rest ih =>
    obtain ⟨p, old⟩ := x
    obtain ⟨hnot, hrest⟩ := List.nodup_cons.mp hnodup
    rcases List.mem_cons.mp h with heq | h
    · cases heq
      simp [ entry?.go]
    · have hp : p ≠ q := by
        rintro rfl
        exact hnot (List.mem_map.mpr ⟨_, h, rfl⟩)
      simpa [ entry?.go, hp] using ih hrest h

theorem map_fst_putEntry {entries : List (Place × Entry)} : (putEntry place e entries).map Prod.fst =
    if place ∈ entries.map Prod.fst then entries.map Prod.fst else entries.map Prod.fst ++ [place] := by
  induction entries with
  | nil => simp [putEntry]
  | cons x rest ih =>
    obtain ⟨p, old⟩ := x
    by_cases hp : p = place
    · simp [putEntry, hp]
    · simp only [putEntry, hp, if_false, List.map_cons, ih, List.mem_cons, Ne.symm hp, false_or]
      split <;> rfl

namespace IsTree

variable (h : fs.IsTree)
include h

theorem entry?_of_mem {x : Place × Entry} (hx : x ∈ fs.entries) : fs.entry? x.1 = some x.2 := by
  rw [ entry?, if_neg (h.ne_nil x hx)]
  exact go_of_mem h.nodup hx

/-- What stands anywhere stands in a directory. -/
theorem isDirAt_dropLast (hq : fs.entry? q = some e) : fs.isDirAt q.dropLast = true := by
  rcases eq_or_ne q [] with rfl | hne
  · simp [isDirAt, entry?]
  · exact h.inside _ (mem_of_entry?_eq hq hne)

/-- Directories are all the way above what stands anywhere. -/
theorem isDirAt_of_prefix (hq : fs.entry? q = some e) (hpre : place <+: q) (hne : place ≠ q) :
    fs.isDirAt place = true := by
  induction q using List.reverseRecOn generalizing e with
  | nil => exact absurd (List.prefix_nil.mp hpre) hne
  | append_singleton front n ih =>
    have hdir := h.isDirAt_dropLast hq
    rw [List.dropLast_concat] at hdir
    obtain ⟨time, hfront⟩ := isDirAt_iff.mp hdir
    rcases List.prefix_concat_iff.mp hpre with heq | hpre
    · exact absurd heq hne
    · by_cases heq : place = front
      · exact heq ▸ hdir
      · exact ih hfront hpre heq

/-- Nothing stands below a place that is free. -/
theorem isClear (hfree : fs.IsFree place) : fs.IsClear place := by
  intro x hx hpre
  have hentry := h.entry?_of_mem hx
  by_cases heq : place = x.1
  · exact ⟨heq.symm, hfree _ (heq ▸ hentry)⟩
  · obtain ⟨time, hdir⟩ := isDirAt_iff.mp (h.isDirAt_of_prefix hentry hpre heq)
    obtain ⟨_, _, hfile⟩ := hfree _ hdir
    cases hfile

/-- Nothing stands below a place where nothing stands. -/
theorem entry?_below (hnone : fs.entry? place = none) (n : List Char) : fs.entry? (place ++ [n]) = none := by
  cases hn : fs.entry? (place ++ [n]) with
  | none => rfl
  | some e =>
    have hdir := h.isDirAt_dropLast hn
    rw [List.dropLast_concat] at hdir
    obtain ⟨time, hdir⟩ := isDirAt_iff.mp hdir
    cases hnone.symm.trans hdir

theorem put (hplace : place ≠ []) (habove : fs.isDirAt place.dropLast = true)
    (hdir : fs.isDirAt place = true → ∃ time, e = .dir time) : (fs.put place e).IsTree := by
  have hkeep (q : Place) (hq : fs.isDirAt q = true) : (fs.put place e).isDirAt q = true := by
    rw [isDirAt_iff, entry?_put hplace]
    by_cases heq : q = place
    · obtain ⟨time, rfl⟩ := hdir (heq ▸ hq)
      exact ⟨time, if_pos heq⟩
    · rw [if_neg heq]
      exact isDirAt_iff.mp hq
  refine ⟨?_, fun x hx ↦ ?_, fun x hx ↦ hkeep _ ?_⟩
  · rw [FileSystem.put, map_fst_putEntry]
    split
    · exact h.nodup
    · rename_i hnot
      refine List.nodup_append.mpr ⟨h.nodup, List.pairwise_singleton _ _, fun a ha b hb heq ↦ hnot ?_⟩
      rwa [← List.mem_singleton.mp hb, ← heq]
  · rcases mem_putEntry hx with rfl | hx
    · exact hplace
    · exact h.ne_nil x hx
  · rcases mem_putEntry hx with rfl | hx
    · exact habove
    · exact h.inside x hx

/-- A directory is made in a directory. -/
theorem add {time : Int} (hdir : fs.isDirAt folder = true) :
    (fs.add folder n (.dir time)).IsTree := by
  have hput : (fs.put (folder ++ [n]) (.dir time)).IsTree :=
    h.put (by simp) (by simpa using hdir) fun _ ↦ ⟨time, rfl⟩
  rw [FileSystem.add, touch]
  split
  · rename_i hfolder
    obtain ⟨t, hentry⟩ := isDirAt_iff.mp hfolder.2
    exact hput.put hfolder.1 (hput.isDirAt_dropLast hentry) fun _ ↦ ⟨_, rfl⟩
  · exact hput

end IsTree

/-- What stands where after something was put in a directory. -/
theorem entry?_add_self (fs : FileSystem) (folder : Place) (n : List Char) (e : Entry) :
    entry? (fs.add folder n e) (folder ++ [n]) = some e := by
  rw [add, entry?_touch, if_neg, entry?_put (by simp), if_pos rfl]
  rintro ⟨heq, -⟩
  simpa using congrArg List.length heq

theorem entry?_add_of_ne (hne : q ≠ folder ++ [n]) (hfolder : q ≠ folder) :
    entry? (fs.add folder n e) q = fs.entry? q := by
  rw [add, entry?_touch, if_neg (fun h ↦ hfolder h.1), entry?_put (by simp), if_neg hne]

/-- Directories and links stay where they are when something is put where nothing stood. -/
theorem holds_add (hnone : fs.entry? (folder ++ [n]) = none) : fs.Holds (fs.add folder n e) := by
  have hput (q : Place) (old : Entry) (hq : fs.entry? q = some old) :
      FileSystem.entry? (fs.put (folder ++ [n]) e) q = some old := by
    rw [entry?_put (by simp), if_neg, hq]
    rintro rfl
    cases hnone.symm.trans hq
  exact ⟨fun q time hq ↦ keeps_touch.dir q time (hput q _ hq),
    fun q target hq ↦ keeps_touch.link q target (hput q _ hq)⟩

/-! ### Blocked ways -/

/-- Why a walk cannot go on from where it ended. -/
def wall? : Except Cause Found → Option Cause
  | .error c => some c
  | .ok (.absent _ _) => some .notFound
  | .ok (.at _ (.dir _)) => none
  | .ok (.at _ _) => some .notDirectory

/-- A way does not lead to a folder. -/
def Blocks (fs : FileSystem) (way : List Step) (c : Cause) : Prop :=
  wall? (fs.walkFrom true (way.length + maxLinks * (fs.longest + 2) + 1) maxLinks [] way) = some c

/-- A walk that cannot go on ends so whatever comes after it, and fails when this is more than staying. -/
theorem walkFrom_of_wall? (h : wall? (fs.walkFrom true fuel links here way) = some c)
    (hlinks : way.length + links * (fs.longest + 2) < fuel)
    (henough : (way ++ rest).length + links * (fs.longest + 2) < fuel') :
    (follow = true → wall? (fs.walkFrom follow fuel' links here (way ++ rest)) = some c) ∧
      (rest.all (· == .stay) = false → fs.walkFrom follow fuel' links here (way ++ rest) = .error c) := by
  induction fuel generalizing fuel' links here way with
  | zero => cases hlinks
  | succ fuel ih =>
    obtain ⟨fuel', rfl⟩ := Nat.exists_eq_add_one_of_ne_zero (Nat.ne_of_gt (Nat.zero_lt_of_lt henough))
    simp only [walkFrom] at h ⊢
    split at h
    · cases h
      exact ⟨fun _ ↦ rfl, fun _ ↦ rfl⟩
    · cases way with
      | nil => cases h
      | cons step tail =>
        simp only [List.cons_append, List.length_cons] at henough hlinks ⊢
        cases step with
        | stay => exact ih h (by omega) (by omega)
        | up => exact ih h (by omega) (by omega)
        | down name =>
          simp only at h ⊢
          split at h
          · -- The name is missing.
            have hc : c = .notFound := by
              split at h <;> exact (Option.some.inj h).symm
            subst hc
            refine ⟨fun _ ↦ by split <;> rfl, fun hrest ↦ ?_⟩
            rw [List.all_append, hrest, Bool.and_false, if_neg Bool.false_ne_true]
          · rename_i target hlink
            simp only [Bool.true_eq_false, and_false, if_false] at h
            have hstop (hgo : follow = true ∨ rest.all (· == .stay) = false) :
                ¬ (tail ++ rest = [] ∧ follow = false) := by
              rintro ⟨hnil, rfl⟩
              obtain ⟨-, rfl⟩ := List.append_eq_nil_iff.mp hnil
              simp at hgo
            cases links with
            | zero =>
              cases h
              exact ⟨fun hgo ↦ by rw [if_neg (hstop (Or.inl hgo))]; rfl, fun hgo ↦ if_neg (hstop (Or.inr hgo))⟩
            | succ links =>
              have htarget := length_le_longest hlink
              have hsteps := length_stepsOf_le target.toList
              rw [String.length_toList] at hsteps
              have hmul : (links + 1) * (fs.longest + 2) = links * (fs.longest + 2) + (fs.longest + 2) :=
                Nat.succ_mul ..
              simp only [List.length_append] at henough
              have hmore : (stepsOf target.toList ++ tail ++ rest).length + links * (fs.longest + 2) < fuel' := by
                simp only [List.length_append]
                omega
              have hnext := ih h (by rw [List.length_append]; omega) hmore
              rw [List.append_assoc] at hnext
              exact ⟨fun hgo ↦ by rw [if_neg (hstop (Or.inl hgo))]; exact hnext.1 hgo,
                fun hgo ↦ by rw [if_neg (hstop (Or.inr hgo))]; exact hnext.2 hgo⟩
          · -- A file stands there.
            have hc : c = .notDirectory := by
              split at h <;> exact (Option.some.inj h).symm
            subst hc
            refine ⟨fun _ ↦ by split <;> rfl, fun hrest ↦ if_neg fun hnil ↦ ?_⟩
            obtain ⟨-, rfl⟩ := List.append_eq_nil_iff.mp hnil
            simp at hrest
          · exact ih h (by omega) (by omega)
    · cases h
      exact ⟨fun _ ↦ rfl, fun _ ↦ rfl⟩

/-- A way leads to a folder or is blocked. -/
theorem leads_or_blocks (fs : FileSystem) (way : List Step) :
    (∃ folder, fs.Leads way folder) ∨ ∃ c, fs.Blocks way c := by
  cases hwall : wall? (fs.walkFrom true (way.length + maxLinks * (fs.longest + 2) + 1) maxLinks [] way) with
  | some c => exact Or.inr ⟨c, hwall⟩
  | none =>
    cases hwalk : fs.walkFrom true (way.length + maxLinks * (fs.longest + 2) + 1) maxLinks [] way with
    | error c => cases hwalk ▸ hwall
    | ok found =>
      cases found with
      | absent folder name => cases hwalk ▸ hwall
      | «at» folder e =>
        cases e with
        | dir time => exact Or.inl ⟨folder, _, time, hwalk⟩
        | file | link => cases hwalk ▸ hwall

namespace Blocks

/-- A way that leads to a folder is not blocked. -/
theorem not_leads (h : fs.Blocks way c) : ¬ fs.Leads way folder := by
  rintro ⟨fuel, time, hwalk⟩
  rw [Blocks, walkFrom_of_fuel hwalk (Nat.lt_succ_self _)] at h
  cases h

theorem unique (h : fs.Blocks way c) (h' : fs.Blocks way c') : c = c' :=
  Option.some.inj (h.symm.trans h')

/-- A walk along the way fails when it goes on. -/
theorem walk (h : fs.Blocks way c) (hp : stepsOf p.text.toList = way ++ rest)
    (hrest : rest.all (· == .stay) = false) : fs.walk p follow = .error c := by
  have htext : p.text.isEmpty = false := by
    obtain ⟨step, hstep, hne⟩ := List.all_eq_false.mp hrest
    exact isEmpty_eq_false_of_mem (hp ▸ List.mem_append_right way hstep) (mt beq_iff_eq.mpr hne)
  simp only [FileSystem.walk, htext, hp, Bool.false_eq_true, if_false]
  refine (walkFrom_of_wall? h (Nat.lt_succ_self _) ?_).2 hrest
  rw [walkFuel_eq, Nat.succ_mul]
  omega

theorem append (h : fs.Blocks way c) (rest : List Step) : fs.Blocks (way ++ rest) c :=
  (walkFrom_of_wall? h (Nat.lt_succ_self _) (Nat.lt_succ_self _)).1 rfl

theorem of_stays {k : Nat} (h : fs.Blocks (way ++ List.replicate k .stay) c) : fs.Blocks way c := by
  rcases leads_or_blocks fs way with ⟨folder, hleads⟩ | ⟨c', hblocks⟩
  · exact absurd (hleads.stays k) h.not_leads
  · rwa [h.unique (hblocks.append _)]

/-- No directory is at a path that is blocked. -/
theorem isDir (h : fs.Blocks (stepsOf p.text.toList) c) : fs.isDir p = false := by
  by_contra hdir
  have hdir := (Bool.not_eq_false _).mp hdir
  obtain ⟨folder, hleads⟩ := (isDir_iff_leads (isDir_iff.mp hdir).1).mp hdir
  exact h.not_leads hleads

end Blocks

/-- Nothing is found at a path that is blocked by something missing. -/
theorem Blocks.stat (h : fs.Blocks (stepsOf p.text.toList) .notFound) : fs.stat p = .error .notFound := by
  cases htext : p.text.isEmpty with
  | true => simp only [FileSystem.stat, FileSystem.walk, htext, if_true]
  | false =>
    have hwall : wall? (fs.walk p true) = some .notFound := by
      have henough : (stepsOf p.text.toList ++ []).length + maxLinks * (fs.longest + 2) <
          fs.walkFuel (stepsOf p.text.toList) := by
        rw [List.append_nil, walkFuel_eq, Nat.succ_mul]
        omega
      have hwalk := (walkFrom_of_wall? h (Nat.lt_succ_self _) henough).1 rfl
      simpa only [FileSystem.walk, htext, Bool.false_eq_true, if_false, List.append_nil] using hwalk
    rw [FileSystem.stat]
    cases hwalk : fs.walk p true with
    | error c =>
      rw [hwalk] at hwall
      rw [Option.some.inj hwall]
    | ok found =>
      cases found with
      | absent => rfl
      | «at» place e => cases e <;> cases hwalk ▸ hwall

/-! ### Climbing -/

/-- A path leads up only out of folders that are there: before no two dots of it is anything missing. -/
def Climbs (fs : FileSystem) (p : Path) : Prop :=
  ∀ before after, p.text.toList = before ++ '/' :: '.' :: '.' :: after → (after = [] ∨ after.head? = some '/') →
    before = [] ∨ fs.stat ⟨String.ofList before⟩ ≠ .error .notFound

theorem climbs_of_not_infix (h : ¬ ['/', '.', '.'] <:+: p.text.toList) : fs.Climbs p := fun before after htext ↦
  absurd ⟨before, after, by rw [htext, List.append_assoc]; rfl⟩ h

/-- A way does not lead up from where it is blocked by something missing. -/
def Rises (fs : FileSystem) (way : List Step) : Prop :=
  ∀ before, before ++ [.up] <+: way → ¬ fs.Blocks before .notFound

theorem leads_nil (fs : FileSystem) : fs.Leads [] [] := ⟨1, usualTime, rfl⟩

theorem leads_stay (fs : FileSystem) : fs.Leads [.stay] [] := (leads_nil fs).stays 1

theorem Climbs.rises (h : fs.Climbs p) : fs.Rises (stepsOf p.text.toList) := by
  rintro before ⟨after, hsteps⟩ hblocks
  rw [List.append_assoc, List.singleton_append, stepsOf] at hsteps
  obtain ⟨front, back, hsplit, hfront, hback⟩ := List.map_eq_append_iff.mp hsteps.symm
  obtain ⟨piece, tail, rfl, hpiece, -⟩ := List.map_eq_cons_iff.mp hback
  have hpiece : piece = ['.', '.'] := by
    split at hpiece
    · cases hpiece
    · split at hpiece
      · assumption
      · cases hpiece
  subst hpiece
  rcases eq_or_ne front [] with rfl | hne
  · obtain rfl : before = [] := hfront.symm
    exact hblocks.not_leads (leads_nil fs)
  · obtain ⟨cs, ds, htext, hcs, hds⟩ := Text.exists_of_splitOn_eq_append hsplit hne (by simp)
    have hbefore : before = stepsOf cs := by rw [stepsOf, hcs, hfront]
    -- Two dots come first in what follows the slash.
    have hdots : ∃ more, ds = '.' :: '.' :: more ∧ (more = [] ∨ more.head? = some '/') := by
      rcases eq_or_ne tail [] with rfl | htail
      · refine ⟨[], ?_, Or.inl rfl⟩
        rw [← Text.joinWith_splitOn '/' ds, hds]
        rfl
      · have hds : Text.splitOn '/' ds = [['.', '.']] ++ tail := hds
        obtain ⟨xs, ys, rfl, hxs, -⟩ := Text.exists_of_splitOn_eq_append hds (by simp) htail
        refine ⟨'/' :: ys, ?_, Or.inr rfl⟩
        rw [← Text.joinWith_splitOn '/' xs, hxs]
        rfl
    obtain ⟨more, rfl, hmore⟩ := hdots
    rcases h cs more htext hmore with rfl | hstat
    · obtain rfl : before = [.stay] := hbefore
      exact hblocks.not_leads (leads_stay fs)
    · refine hstat (Blocks.stat ?_)
      rwa [String.toList_ofList, ← hbefore]

/-! ### The path above -/

variable {front last : List Char}

/-- The path above leads where the way before the last piece leads. -/
theorem leads_above_iff (hends : p.EndsIn front last) :
    fs.Leads (stepsOf (Path.above front).text.toList) folder ↔ fs.Leads (wayOf front) folder := by
  obtain ⟨k, habove⟩ := hends.steps_above
  constructor <;> intro h
  · have hstays := h.stays k
    rw [← habove] at hstays
    exact hstays.of_stays (k := 1)
  · have hstays := h.stays 1
    rw [List.replicate_one, habove] at hstays
    exact hstays.of_stays

theorem blocks_of_above (hends : p.EndsIn front last) (h : fs.Blocks (stepsOf (Path.above front).text.toList) c) :
    fs.Blocks (wayOf front) c := by
  obtain ⟨k, habove⟩ := hends.steps_above
  have hstays := h.append (List.replicate k .stay)
  rw [← habove] at hstays
  exact hstays.of_stays (k := 1)

theorem Rises.above (h : fs.Rises (stepsOf p.text.toList)) (hends : p.EndsIn front last) :
    fs.Rises (stepsOf (Path.above front).text.toList) := by
  obtain ⟨k, habove⟩ := hends.steps_above
  obtain ⟨m, hsteps⟩ := hends.steps
  intro before hbefore
  have hpre := hbefore.trans (List.prefix_append _ (List.replicate k .stay))
  rw [← habove] at hpre
  rcases List.prefix_concat_iff.mp hpre with heq | hpre
  · cases List.append_inj_right' heq rfl
  · exact h before (hsteps ▸ hpre.trans (List.prefix_append ..))

/-! ### Making folders -/

/-- Folders that were missing along a way were made, down to one in which nothing stands. -/
structure Made (fs fs' : FileSystem) (way : List Step) (folder : Place) : Prop where
  missing : fs.Blocks way .notFound
  tree : fs'.IsTree
  leads : fs'.Leads way folder
  bare : ∀ n, fs'.entry? (folder ++ [n]) = none

/-- A directory is made where a name is missing. -/
theorem Leads.makeDir (h : fs.Leads way folder) (hp : stepsOf p.text.toList = way ++ [.down n])
    (hnone : fs.entry? (folder ++ [n]) = none) : fs.makeDir p = .ok (fs.add folder n (.dir usualTime)) := by
  rw [FileSystem.makeDir, h.walk_last (k := 0) hp (Or.inl ⟨rfl, rfl⟩), hnone]
  simp only [lastStop, lastStep?_of_down hp, Option.some.injEq, reduceCtorEq, if_false]

/-- No directory is made where something stands. -/
theorem Leads.makeDir_of_entry (h : fs.Leads way folder) (hp : stepsOf p.text.toList = way ++ [.down n])
    (he : fs.entry? (folder ++ [n]) = some e) : fs.makeDir p = .error .alreadyExists := by
  rw [FileSystem.makeDir, h.walk_last (k := 0) hp (Or.inl ⟨rfl, rfl⟩), he]
  cases e <;> rfl

/-- A name that is missing blocks a way. -/
theorem Leads.blocks_down (h : fs.Leads way folder) (hnone : fs.entry? (folder ++ [n]) = none) :
    fs.Blocks (way ++ [.down n]) .notFound := by
  obtain ⟨time, hdir⟩ := isDirAt_iff.mp h.isDirAt
  obtain ⟨fuel, t', hwalk⟩ := h
  obtain ⟨fuel', links', hpos, hrest⟩ := (arrives_of_walkFrom hwalk).walkFrom_append 1
  obtain ⟨fuel', rfl⟩ := Nat.exists_eq_add_one_of_ne_zero (Nat.ne_of_gt hpos)
  have hend : fs.walkFrom true (fuel + 1) maxLinks [] (way ++ [.down n]) = .ok (.absent folder n) := by
    rw [hrest true [.down n] (by simp)]
    simp only [walkFrom, hdir, hnone, List.all_nil, if_true]
  rw [Blocks, walkFrom_of_fuel hend (Nat.lt_succ_self _)]
  rfl

/-- A directory that is made leads on, and nothing stands in it. -/
theorem Leads.add (h : fs.Leads way folder) (htree : fs.IsTree) (hnone : fs.entry? (folder ++ [n]) = none) :
    (fs.add folder n (.dir usualTime)).IsTree ∧
      (fs.add folder n (.dir usualTime)).Leads (way ++ [.down n]) (folder ++ [n]) ∧
      ∀ m, FileSystem.entry? (fs.add folder n (.dir usualTime)) (folder ++ [n] ++ [m]) = none := by
  refine ⟨htree.add h.isDirAt, (h.of_holds (holds_add hnone)).down ?_, fun m ↦ ?_⟩
  · exact isDirAt_iff.mpr ⟨usualTime, entry?_add_self ..⟩
  · rw [entry?_add_of_ne, htree.entry?_below hnone]
    · exact fun heq ↦ by simpa using congrArg List.length heq
    · exact fun heq ↦ by simpa using congrArg List.length heq

/-- When a directory is refused for another cause than that something is missing, nothing is made. -/
theorem makeDirsWith_of_error (hmake : fs.makeDir p = .error c) (hc : c ≠ .notFound)
    (hblocks : fs.Blocks (stepsOf p.text.toList) c') (fuel : Nat) :
    fs.makeDirsWith (fuel + 1) p = .error c ∧ fs.madeBeforeWith (fuel + 1) p = fs := by
  have htext : p.text.isEmpty = false := by
    cases hempty : p.text.isEmpty with
    | false => rfl
    | true =>
      rw [String.isEmpty_iff.mp hempty] at hblocks
      exact absurd (leads_stay fs) hblocks.not_leads
  rw [makeDirsWith, madeBeforeWith, htext, hmake]
  cases c with
  | notFound => exact absurd rfl hc
  | _ => simp only [Bool.false_eq_true, if_false, hblocks.isDir, and_self]

/-- What becomes of the folders along a way when they are made: `result` is what that comes to, and `left` what
there is when it fails. -/
inductive Fares (fs : FileSystem) (way : List Step) (result : Except Cause FileSystem) (left : FileSystem) : Prop
  /-- All of them are there. -/
  | there (folder : Place) (hmake : result = .ok fs) (hleads : fs.Leads way folder)
  /-- The last ones of them are made. -/
  | made (fs' : FileSystem) (folder : Place) (hmake : result = .ok fs') (hmade : fs.Made fs' way folder)
  /-- Nothing is made at all. -/
  | refused (c : Cause) (hmake : result = .error c) (hleft : left = fs)

/-- In a folder that is there the last directory is made, unless something else stands in its place. -/
theorem Leads.fares (h : fs.Leads (wayOf front) folder) (htree : fs.IsTree) (hends : p.EndsIn front last)
    (hp : stepsOf p.text.toList = wayOf front ++ [stepOf last]) (hblocks : fs.Blocks (stepsOf p.text.toList) c)
    (fuel : Nat) : fs.Fares (stepsOf p.text.toList) (fs.makeDirsWith (fuel + 1) p)
      (fs.madeBeforeWith (fuel + 1) p) := by
  by_cases hdots : last = ['.', '.']
  · -- Above every folder is one.
    rw [hp, stepOf, if_pos hdots] at hblocks
    obtain ⟨time, hfolder⟩ := isDirAt_iff.mp h.isDirAt
    exact absurd (h.up (htree.isDirAt_dropLast hfolder)) hblocks.not_leads
  · rw [stepOf_eq_down hdots] at hp
    cases he : fs.entry? (folder ++ [last]) with
    | some e =>
      obtain ⟨hmake, hleft⟩ := makeDirsWith_of_error (h.makeDir_of_entry hp he) (by simp) hblocks fuel
      exact .refused _ hmake hleft
    | none =>
      obtain ⟨htree', hleads', hbare⟩ := h.add htree he
      refine .made _ (folder ++ [last]) ?_ ⟨hp ▸ h.blocks_down he, htree', hp ▸ hleads', hbare⟩
      rw [makeDirsWith, hends.isEmpty_eq_false, h.makeDir hp he]
      simp only [Bool.false_eq_true, if_false]

/-- Where the folder above is missing, the last directory is made when that one can be. -/
theorem Fares.below (h : fs.Fares (stepsOf (Path.above front).text.toList)
      (fs.makeDirsWith fuel (Path.above front)) (fs.madeBeforeWith fuel (Path.above front)))
    (hends : p.EndsIn front last) (hp : stepsOf p.text.toList = wayOf front ++ [.down last])
    (hway : fs.Blocks (wayOf front) .notFound) :
    fs.Fares (stepsOf p.text.toList) (fs.makeDirsWith (fuel + 1) p) (fs.madeBeforeWith (fuel + 1) p) := by
  have hfirst : fs.makeDir p = .error .notFound := by rw [makeDir, hway.walk hp rfl]
  cases h with
  | there folder hmake hleads => exact absurd ((leads_above_iff hends).mp hleads) hway.not_leads
  | made fs' folder hmake hmade =>
    have hleads := (leads_above_iff hends).mp hmade.leads
    obtain ⟨htree', hleads', hbare⟩ := hleads.add hmade.tree (hmade.bare last)
    refine .made _ (folder ++ [last]) ?_ ⟨hp ▸ hway.append _, htree', hp ▸ hleads', hbare⟩
    rw [makeDirsWith, hends.isEmpty_eq_false, hfirst]
    simp only [Bool.false_eq_true, if_false, hends.parent?, hmake, hleads.makeDir hp (hmade.bare last)]
  | refused c hmake hleft =>
    refine .refused c ?_ ?_
    · rw [makeDirsWith, hends.isEmpty_eq_false, hfirst]
      simp only [Bool.false_eq_true, if_false, hends.parent?, hmake]
    · rw [madeBeforeWith, hfirst, hends.parent?]
      simp only [hmake, hleft]

/-- What becomes of the folders along a path that leads up only out of folders that are there. -/
theorem fares_makeDirsWith (htree : fs.IsTree) (hrises : fs.Rises (stepsOf p.text.toList))
    (hend : Path.dropIdleEnd p.text.toList.reverse = p.text.toList.reverse)
    (hfuel : p.components.length < fuel) :
    fs.Fares (stepsOf p.text.toList) (fs.makeDirsWith fuel p) (fs.madeBeforeWith fuel p) := by
  induction fuel generalizing p with
  | zero => exact absurd hfuel (Nat.not_lt_zero _)
  | succ fuel ih =>
    rcases leads_or_blocks fs (stepsOf p.text.toList) with ⟨folder, hleads⟩ | ⟨c, hblocks⟩
    · refine .there folder ?_ hleads
      cases htext : p.text.isEmpty with
      | true => rw [makeDirsWith, htext, if_pos rfl]
      | false => exact makeDirsWith_of_isDir ((isDir_iff_leads htext).mpr ⟨folder, hleads⟩) fuel
    · -- What leads nowhere ends in a piece.
      obtain ⟨front, last, hends⟩ := p.stays_or_endsIn.resolve_left fun h ↦ by
        obtain ⟨⟨k, hstays⟩, -⟩ := h
        have hleads := (leads_nil fs).stays (k + 1)
        rw [List.nil_append, ← hstays] at hleads
        exact hblocks.not_leads hleads
      have hp : stepsOf p.text.toList = wayOf front ++ [stepOf last] := by
        have htext := hends.dropIdleEnd_eq
        rw [hend, List.reverse_reverse] at htext
        rw [htext, hends.stepsOf_append hends.slash hends.ne_nil hends.ne_dot]
      rcases leads_or_blocks fs (wayOf front) with ⟨folder, hleads⟩ | ⟨c', hway⟩
      · exact hleads.fares htree hends hp hblocks fuel
      · by_cases hc' : c' = .notFound
        · subst hc'
          -- Two dots do not lead up from here.
          have hdots : last ≠ ['.', '.'] := by
            rintro hdots
            refine hrises (wayOf front) ?_ hway
            rw [hp, stepOf, if_pos hdots]
          have hlength := hends.length_components
          have habove := ih (hrises.above hends) (Path.dropIdleEnd_above front) (by omega)
          exact habove.below hends (stepOf_eq_down hdots ▸ hp) hway
        · have hmore : [stepOf last].all (· == .stay) = false := by simp [stepOf_ne_stay]
          obtain ⟨hmake, hleft⟩ :=
            makeDirsWith_of_error (by rw [makeDir, hway.walk hp hmore]) hc' hblocks fuel
          exact .refused _ hmake hleft

/-- What becomes of the folders above the last piece of a path. -/
theorem fares_above (htree : fs.IsTree) (hends : p.EndsIn front last)
    (hrises : fs.Rises (stepsOf p.text.toList)) :
    fs.Fares (wayOf front) (fs.makeDirs (Path.above front)) (fs.madeBefore (Path.above front)) := by
  cases fares_makeDirsWith htree (hrises.above hends) (Path.dropIdleEnd_above front) (Nat.lt_succ_self _) with
  | there folder hmake hleads => exact .there folder hmake ((leads_above_iff hends).mp hleads)
  | made fs' folder hmake hmade =>
    exact .made fs' folder hmake ⟨blocks_of_above hends hmade.missing, hmade.tree,
      (leads_above_iff hends).mp hmade.leads, hmade.bare⟩
  | refused c hmake hleft => exact .refused c hmake hleft

end CodeNav.FileSystem
