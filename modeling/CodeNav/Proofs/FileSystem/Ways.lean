import CodeNav.Proofs.FileSystem.Walks
import CodeNav.Proofs.Text.Split

/-!
# Ways to folders

A way *leads* to a folder when a walk along it ends there. Other changes of files that keep the directories
and links on the way keep it, and a walk that goes on from the folder goes on from there. How much fuel a walk
is given makes no difference as long as it is enough, which it is for every walk along a path.

## Main definitions

* `FileSystem.Leads`: a way leads to a folder

## Main statements

* `FileSystem.Leads.walk`: a walk along a path that goes on from the folder
* `FileSystem.Leads.down`: a name leads to a folder in the folder
* `FileSystem.Leads.makeDirs`: a folder that a path leads to, but for its end, is made without a change
-/

namespace CodeNav.FileSystem

variable {fs fs' : FileSystem} {way rest : List Step} {folder here there q : Place} {e : Entry}
  {follow : Bool} {fuel fuel' links : Nat} {found : Found} {n : List Char} {p : Path}

/-! ### Fuel -/

/-- The length of a link, if it is a longer one. -/
def longer (acc : Nat) : Entry → Nat
  | .link target => max acc target.length
  | _ => acc

theorem le_longer (acc : Nat) (e : Entry) : acc ≤ longer acc e := by
  cases e with
  | link target => exact le_max_left ..
  | dir | file => exact le_rfl

/-- The length of the longest link. -/
def longest (fs : FileSystem) : Nat := fs.entries.foldl (fun acc x ↦ longer acc x.2) 0

theorem walkFuel_eq (fs : FileSystem) (steps : List Step) :
    fs.walkFuel steps = steps.length + (maxLinks + 1) * (fs.longest + 2) + 2 := rfl

theorem length_le_longest {target : String} (h : fs.entry? q = some (.link target)) :
    target.length ≤ fs.longest := by
  have hmem : (q, Entry.link target) ∈ fs.entries := by
    by_cases hq : q = []
    · rw [ entry?, if_pos hq] at h
      cases h
    · exact mem_of_go (by rwa [ entry?, if_neg hq] at h)
  have hgrow (l : List (Place × Entry)) (acc : Nat) : acc ≤ l.foldl (fun acc x ↦ longer acc x.2) acc := by
    induction l generalizing acc with
    | nil => exact le_rfl
    | cons x l ih => exact le_trans (le_longer acc x.2) (ih _)
  obtain ⟨before, after, hentries⟩ := List.append_of_mem hmem
  rw [longest, hentries, List.foldl_append, List.foldl_cons]
  exact le_trans (le_max_right _ _) (hgrow after _)

theorem length_stepsOf_le (cs : List Char) : (stepsOf cs).length ≤ cs.length + 1 := by
  rw [stepsOf, List.length_map]
  induction cs with
  | nil => simp [Text.splitOn]
  | cons c cs ih =>
    simp only [Text.splitOn]
    split
    · simpa using ih
    · split
      · simp
      · rename_i hsplit
        rw [hsplit] at ih
        simpa using le_trans ih (Nat.le_succ _)

/-- A walk that finds something does so also with other fuel, as long as there is enough of it. -/
theorem walkFrom_of_fuel (h : fs.walkFrom follow fuel links here way = .ok found)
    (henough : way.length + links * (fs.longest + 2) < fuel') :
    fs.walkFrom follow fuel' links here way = .ok found := by
  induction fuel generalizing fuel' links here way with
  | zero => cases h
  | succ fuel ih =>
    obtain ⟨fuel', rfl⟩ := Nat.exists_eq_add_one_of_ne_zero (Nat.ne_of_gt (Nat.zero_lt_of_lt henough))
    simp only [walkFrom] at h ⊢
    split at h
    · cases h
    · cases way with
      | nil => exact h
      | cons step rest =>
        simp only [List.length_cons] at henough
        cases step with
        | stay => exact ih h (by omega)
        | up => exact ih h (by omega)
        | down name =>
          simp only at h ⊢
          split at h
          · exact h
          · rename_i target hlink
            split at h
            · rename_i hstop
              rw [if_pos hstop]
              exact h
            · rename_i hgo
              rw [if_neg hgo]
              cases links with
              | zero => cases h
              | succ links =>
                have htarget := length_le_longest hlink
                have hsteps := length_stepsOf_le target.toList
                rw [String.length_toList] at hsteps
                refine ih h ?_
                rw [List.length_append]
                have hmul : (links + 1) * (fs.longest + 2) = links * (fs.longest + 2) + (fs.longest + 2) :=
                  Nat.succ_mul ..
                omega
          · exact h
          · exact ih h (by omega)
    · cases h

/-! ### Ways that go on -/

/-- A walk that ends in a directory goes on from there, with as much more fuel as it was given. -/
theorem Arrives.walkFrom_append {time : Int} (h : fs.Arrives folder time fuel links here way) (more : Nat) :
    ∃ fuel' links', 0 < fuel' ∧ ∀ follow, ∀ rest ≠ [],
      fs.walkFrom follow (fuel + more) links here (way ++ rest) =
        fs.walkFrom follow (fuel' + more) links' folder rest := by
  induction h with
  | @done fuel links hdir => exact ⟨fuel + 1, links, Nat.succ_pos _, fun _ _ _ ↦ rfl⟩
  | stay hdir _ ih | up hdir _ ih =>
    obtain ⟨fuel', links', hpos, hrest⟩ := ih
    refine ⟨fuel', links', hpos, fun follow rest hne ↦ ?_⟩
    simpa only [List.cons_append, Nat.add_right_comm _ 1, walkFrom, hdir] using hrest follow rest hne
  | enter hdir hnext _ ih =>
    obtain ⟨fuel', links', hpos, hrest⟩ := ih
    refine ⟨fuel', links', hpos, fun follow rest hne ↦ ?_⟩
    simpa only [List.cons_append, Nat.add_right_comm _ 1, walkFrom, hdir, hnext] using hrest follow rest hne
  | @follow fuel links here t name target tail hdir hlink _ ih =>
    obtain ⟨fuel', links', hpos, hrest⟩ := ih
    refine ⟨fuel', links', hpos, fun follow rest hne ↦ ?_⟩
    have hnil : ¬ (tail ++ rest = [] ∧ follow = false) := by simp [hne]
    rw [List.cons_append, Nat.add_right_comm _ 1]
    simpa only [walkFrom, hdir, hlink, if_neg hnil, List.append_assoc] using hrest follow rest hne

/-- A walk to a directory that ends by staying there ends there without that. -/
theorem Arrives.of_stay {time : Int} (h : fs.Arrives folder time fuel links here (way ++ [.stay])) :
    fs.Arrives folder time fuel links here way := by
  generalize hway : way ++ [.stay] = way' at h
  induction h generalizing way with
  | done => exact absurd hway (by simp)
  | stay hdir h ih =>
    rcases List.append_eq_cons_iff.mp hway with ⟨rfl, hlast⟩ | ⟨tail, rfl, rfl⟩
    · obtain ⟨-, rfl⟩ := List.cons.inj hlast
      cases h with
      | done hend => exact .done hend
    · exact .stay hdir (ih rfl)
  | up hdir _ ih =>
    obtain ⟨tail, rfl, rfl⟩ := (List.append_eq_cons_iff.mp hway).resolve_left (by simp)
    exact .up hdir (ih rfl)
  | enter hdir hnext _ ih =>
    obtain ⟨tail, rfl, rfl⟩ := (List.append_eq_cons_iff.mp hway).resolve_left (by simp)
    exact .enter hdir hnext (ih rfl)
  | follow hdir hlink _ ih =>
    obtain ⟨tail, rfl, rfl⟩ := (List.append_eq_cons_iff.mp hway).resolve_left (by simp)
    exact .follow hdir hlink (ih (List.append_assoc ..))

/-- Where a walk to a directory ends, there is the directory. -/
theorem Arrives.entry?_eq {time : Int} (h : fs.Arrives folder time fuel links here way) :
    fs.entry? folder = some (.dir time) := by
  induction h with
  | done hdir => exact hdir
  | stay _ _ ih | up _ _ ih | enter _ _ _ ih | follow _ _ _ ih => exact ih

/-! ### Ways that lead to folders -/

/-- A way leads to a directory. -/
def Leads (fs : FileSystem) (way : List Step) (folder : Place) : Prop :=
  ∃ fuel time, fs.walkFrom true fuel maxLinks [] way = .ok (.at folder (.dir time))

theorem isDirAt_iff : fs.isDirAt q = true ↔ ∃ time, fs.entry? q = some (.dir time) := by
  rw [isDirAt]
  split
  · rename_i time h
    exact ⟨fun _ ↦ ⟨time, h⟩, fun _ ↦ rfl⟩
  · rename_i hnot
    exact ⟨fun h ↦ (Bool.false_ne_true h).elim, fun h ↦ h.elim fun time h ↦ absurd h (hnot time)⟩

/-- The path above one that ends in a name, a slash before it: what it leads to, but for what says nothing. -/
theorem stepsOf_dropIdleEnd (back : List Char) : ∃ k, stepsOf back.reverse =
    stepsOf (Path.dropIdleEnd back).reverse ++ List.replicate k .stay := by
  fun_induction Path.dropIdleEnd back with
  | case1 => exact ⟨0, by simp⟩
  | case2 rest _ ih =>
    obtain ⟨k, ih⟩ := ih
    refine ⟨k + 1, ?_⟩
    rw [List.reverse_cons, stepsOf_append_slash, ih, List.replicate_succ', List.append_assoc]
    rfl
  | case3 rest ih =>
    obtain ⟨k, ih⟩ := ih
    refine ⟨k, ?_⟩
    rw [← ih, List.reverse_cons, List.reverse_cons, List.append_assoc, List.singleton_append,
      stepsOf_append_slash, stepsOf_append_slash]
    rfl
  | case4 => exact ⟨0, by simp⟩

/-- What a walk finds that ends in a name and perhaps stays there. -/
def lastStop (folder : Place) (n : List Char) (k : Nat) : Option Entry → Except Cause Found
  | none => .ok (.absent folder n)
  | some (.file bytes runnable) =>
    if k = 0 then .ok (.at (folder ++ [n]) (.file bytes runnable)) else .error .notDirectory
  | some e => .ok (.at (folder ++ [n]) e)

namespace Leads

theorem isDirAt (h : fs.Leads way folder) : fs.isDirAt folder = true := by
  obtain ⟨fuel, time, h⟩ := h
  exact isDirAt_iff.mpr ⟨time, (arrives_of_walkFrom h).entry?_eq⟩

/-- A way is kept with the directories and links on it. -/
theorem of_holds (h : fs.Leads way folder) (hholds : fs.Holds fs') : fs'.Leads way folder := by
  obtain ⟨fuel, time, h⟩ := h
  obtain ⟨time', h⟩ := walkFrom_of_holds hholds h
  exact ⟨fuel, time', h⟩

theorem of_stays {k : Nat} (h : fs.Leads (way ++ List.replicate k .stay) folder) : fs.Leads way folder := by
  induction k with
  | zero => simpa using h
  | succ k ih =>
    rw [List.replicate_succ', ← List.append_assoc] at h
    obtain ⟨fuel, time, h⟩ := h
    exact ih ⟨fuel, time, (arrives_of_walkFrom h).of_stay.walkFrom_eq⟩

/-- Staying leads nowhere else. -/
theorem stays (h : fs.Leads way folder) (k : Nat) : fs.Leads (way ++ List.replicate k .stay) folder := by
  induction k with
  | zero => simpa using h
  | succ k ih =>
    obtain ⟨fuel, time, h⟩ := ih
    obtain ⟨fuel', links', hpos, hrest⟩ := (arrives_of_walkFrom h).walkFrom_append 1
    refine ⟨fuel + 1, time, ?_⟩
    obtain ⟨fuel', rfl⟩ := Nat.exists_eq_add_one_of_ne_zero (Nat.ne_of_gt hpos)
    rw [List.replicate_succ', ← List.append_assoc, hrest true [.stay] (by simp)]
    simp only [walkFrom, (arrives_of_walkFrom h).entry?_eq]

/-- A walk along the way goes on from its end. -/
theorem walk (h : fs.Leads way folder) (hp : stepsOf p.text.toList = way ++ rest) (hne : rest ≠ [])
    (htext : p.text.isEmpty = false) : ∃ fuel links, rest.length < fuel ∧ ∀ follow,
      fs.walk p follow = fs.walkFrom follow fuel links folder rest := by
  obtain ⟨fuel, time, h⟩ := h
  have harrives := arrives_of_walkFrom <|
    walkFrom_of_fuel h (Nat.lt_succ_self (way.length + maxLinks * (fs.longest + 2)))
  obtain ⟨fuel', links', hpos, hrest⟩ := harrives.walkFrom_append (rest.length + (fs.longest + 2) + 1)
  refine ⟨fuel' + (rest.length + (fs.longest + 2) + 1), links', by omega, fun follow ↦ ?_⟩
  have hfuel : fs.walkFuel (way ++ rest) =
      way.length + maxLinks * (fs.longest + 2) + 1 + (rest.length + (fs.longest + 2) + 1) := by
    rw [walkFuel_eq, List.length_append, Nat.succ_mul]
    omega
  simp only [FileSystem.walk, htext, hp, hfuel, Bool.false_eq_true, if_false]
  exact hrest follow rest hne

/-- A name leads down. -/
theorem down (h : fs.Leads way folder) (hn : fs.isDirAt (folder ++ [n]) = true) :
    fs.Leads (way ++ [.down n]) (folder ++ [n]) := by
  obtain ⟨t, hdir⟩ := isDirAt_iff.mp h.isDirAt
  obtain ⟨time, hn⟩ := isDirAt_iff.mp hn
  obtain ⟨fuel, t', h⟩ := h
  obtain ⟨fuel', links', hpos, hrest⟩ := (arrives_of_walkFrom h).walkFrom_append 1
  refine ⟨fuel + 1, time, ?_⟩
  rw [hrest true [.down n] (by simp)]
  obtain ⟨fuel', rfl⟩ := Nat.exists_eq_add_one_of_ne_zero (Nat.ne_of_gt hpos)
  simp only [walkFrom, hdir, hn]

/-- A walk along the way to a name in the folder, which is no link that is to be followed. -/
theorem walk_last {k : Nat} (h : fs.Leads way folder)
    (hp : stepsOf p.text.toList = way ++ .down n :: List.replicate k .stay)
    (hplain : (follow = false ∧ k = 0) ∨ ∀ target, fs.entry? (folder ++ [n]) ≠ some (.link target)) :
    fs.walk p follow = lastStop folder n k (fs.entry? (folder ++ [n])) := by
  have hmem : Step.down n ∈ stepsOf p.text.toList := hp ▸ List.mem_append_right way List.mem_cons_self
  have htext : p.text.isEmpty = false := isEmpty_eq_false_of_mem hmem (by simp)
  obtain ⟨fuel, links, hfuel, hwalk⟩ := h.walk hp (by simp) htext
  obtain ⟨fuel, rfl⟩ := Nat.exists_eq_add_one_of_ne_zero (Nat.ne_of_gt (Nat.zero_lt_of_lt hfuel))
  obtain ⟨time, hdir⟩ := isDirAt_iff.mp h.isDirAt
  simp only [hwalk, walkFrom, hdir]
  cases he : fs.entry? (folder ++ [n]) with
  | none => simp [lastStop]
  | some e =>
    cases e with
    | link target =>
      obtain ⟨rfl, rfl⟩ := hplain.resolve_right fun hnot ↦ hnot target he
      simp [lastStop]
    | file bytes runnable => simp [lastStop]
    | dir t =>
      -- The walk stays in the directory for as long as it goes on.
      have hstays (k fuel : Nat) (hfuel : k < fuel) :
          fs.walkFrom follow fuel links (folder ++ [n]) (List.replicate k .stay) =
            .ok (.at (folder ++ [n]) (.dir t)) := by
        induction k generalizing fuel with
        | zero =>
          obtain ⟨fuel, rfl⟩ := Nat.exists_eq_add_one_of_ne_zero (Nat.ne_of_gt hfuel)
          simp only [List.replicate_zero, walkFrom, he]
        | succ k ih =>
          obtain ⟨fuel, rfl⟩ := Nat.exists_eq_add_one_of_ne_zero (Nat.ne_of_gt (Nat.zero_lt_of_lt hfuel))
          simpa only [List.replicate_succ, walkFrom, he] using ih fuel (Nat.lt_of_succ_lt_succ hfuel)
      exact hstays k fuel (by simpa using hfuel)

/-- A file is written where nothing but a file stands. -/
theorem write (h : fs.Leads way folder) (hp : stepsOf p.text.toList = way ++ [.down n])
    (hclear : fs.IsClear (folder ++ [n])) (bytes : ByteArray) :
    ∃ fs' runnable, fs.write p bytes = .ok fs' ∧ fs.Keeps fs' ∧ fs'.IsClear (folder ++ [n]) ∧
      fs'.entry? (folder ++ [n]) = some (.file bytes runnable) ∧
      ∀ m, m ≠ n → fs'.entry? (folder ++ [m]) = fs.entry? (folder ++ [m]) := by
  have hplace : folder ++ [n] ≠ [] := by simp
  have hfree := hclear.isFree hplace
  have hbelow : ¬ folder ++ [n] <+: folder := by simpa using not_prefix_dropLast hplace
  have hplain (target : String) : fs.entry? (folder ++ [n]) ≠ some (.link target) := fun hlink ↦ by
    obtain ⟨_, _, hfile⟩ := hfree _ hlink
    cases hfile
  have hwalk : fs.walk p true = lastStop folder n 0 (fs.entry? (folder ++ [n])) := h.walk_last hp (Or.inr hplain)
  have hput (runnable : Bool) : fs.Keeps (fs.put (folder ++ [n]) (.file bytes runnable)) := keeps_put hfree hplace
  have hclear' (runnable : Bool) : (fs.put (folder ++ [n]) (.file bytes runnable)).IsClear (folder ++ [n]) :=
    hclear.put fun _ ↦ ⟨rfl, _, _, rfl⟩
  have hsame (runnable : Bool) (m : List Char) (hm : m ≠ n) :
      FileSystem.entry? (fs.put (folder ++ [n]) (.file bytes runnable)) (folder ++ [m]) =
        fs.entry? (folder ++ [m]) := by
    rw [entry?_put hplace, if_neg (by simpa using hm)]
  rw [FileSystem.write, hwalk]
  cases he : fs.entry? (folder ++ [n]) with
  | none =>
    refine ⟨fs.add folder n (.file bytes false), false, ?_, (hput false).trans keeps_touch,
      (hclear' false).touch hbelow, ?_, fun m hm ↦ ?_⟩
    · simp only [lastStop, lastStep?_of_down hp, getLast?_ne_slash hp, Option.some.injEq, reduceCtorEq, if_false]
    · rw [add, entry?_touch_down, entry?_put hplace, if_pos rfl]
    · rw [add, entry?_touch_down, hsame false m hm]
  | some e =>
    obtain ⟨old, runnable, rfl⟩ := hfree e he
    refine ⟨_, runnable, rfl, hput runnable, hclear' runnable, ?_, hsame runnable⟩
    rw [entry?_put hplace, if_pos rfl]

/-- Up is the place above. -/
theorem up (h : fs.Leads way folder) (habove : fs.isDirAt folder.dropLast = true) :
    fs.Leads (way ++ [.up]) folder.dropLast := by
  obtain ⟨t, hdir⟩ := isDirAt_iff.mp h.isDirAt
  obtain ⟨time, habove⟩ := isDirAt_iff.mp habove
  obtain ⟨fuel, t', h⟩ := h
  obtain ⟨fuel', links', hpos, hrest⟩ := (arrives_of_walkFrom h).walkFrom_append 1
  refine ⟨fuel + 1, time, ?_⟩
  rw [hrest true [.up] (by simp)]
  obtain ⟨fuel', rfl⟩ := Nat.exists_eq_add_one_of_ne_zero (Nat.ne_of_gt hpos)
  simp only [walkFrom, hdir, habove]

end Leads

/-- A directory is at a path that leads to one. -/
theorem isDir_iff_leads (htext : p.text.isEmpty = false) :
    fs.isDir p = true ↔ ∃ folder, fs.Leads (stepsOf p.text.toList) folder := by
  rw [isDir_iff]
  constructor
  · rintro ⟨-, folder, time, h⟩
    exact ⟨folder, _, time, h⟩
  · rintro ⟨folder, fuel, time, h⟩
    refine ⟨htext, folder, time, walkFrom_of_fuel h ?_⟩
    rw [walkFuel_eq, Nat.succ_mul]
    omega

/-- What a path leads to, but for what says nothing at its end, is made without a change. -/
theorem Leads.makeDirs {cs : List Char} (h : fs.Leads (stepsOf cs) folder) :
    fs.makeDirs ⟨String.ofList (Path.dropIdleEnd ('/' :: cs.reverse)).reverse⟩ = .ok fs := by
  set p : Path := ⟨String.ofList (Path.dropIdleEnd ('/' :: cs.reverse)).reverse⟩ with hp
  cases hempty : p.text.isEmpty with
  | true => simp only [FileSystem.makeDirs, makeDirsWith, hempty, if_true]
  | false =>
    have hslash : stepsOf ('/' :: cs.reverse).reverse = stepsOf cs ++ List.replicate 1 .stay := by
      rw [List.reverse_cons, List.reverse_reverse, stepsOf_append_slash]
      rfl
    obtain ⟨k, hsteps⟩ := stepsOf_dropIdleEnd ('/' :: cs.reverse)
    have hstay := h.stays 1
    rw [← hslash, hsteps] at hstay
    refine makeDirs_of_isDir ((isDir_iff_leads hempty).mpr ⟨folder, ?_⟩)
    rw [hp, String.toList_ofList]
    exact hstay.of_stays

end CodeNav.FileSystem
