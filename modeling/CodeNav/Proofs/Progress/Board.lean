import CodeNav.Progress
import CodeNav.Proofs.Run
import Mathlib.Data.List.Infix

/-!
# Boards and the logs they hand out

A board hands out the logs of repositories to readers and to synchronizations that begin, and a log
that was handed out may be written to at any time. A repository has one log, which is the same one
whoever is handed it and when, and no two repositories share one; so what is done with logs that were
handed out is what is done with the logs of their repositories. The board remembers which
synchronization began last, altogether and on each code host, and always has the log of it.

## Main definitions

* `BoardEvent`, `ProgressBoard.Step`: what is done with a board
* `BoardEvent.lastBegun`: the last synchronization that began, among some
* `ProgressBoard.Sound`: how a board stands to what was done with it
* `ProgressBoard.Agrees`: what can be relied on

## Main statements

* `ProgressBoard.write_eq_change`, `ProgressBoard.handOutBegun_eq_begin`: logs that were handed out and
  logs of repositories
* `ProgressBoard.Sound.step`: what every step keeps
* `ProgressBoard.agrees_of_run`: what can be relied on all along
-/

namespace CodeNav

/-- What is seen of the use of a board. -/
inductive BoardEvent
  /-- The synchronization of a repository begins and is handed its log. -/
  | begun (key : RepositoryKey) (log : LogHandle)
  /-- Somebody is handed the log of a repository. -/
  | asked (key : RepositoryKey) (log : LogHandle)
  /-- Somebody writes to a log. -/
  | written (log : LogHandle) (f : ProgressLog → ProgressLog)

namespace BoardEvent

/-- The repository of a synchronization that begins, and the log that it is handed. -/
def begun? : BoardEvent → Option (RepositoryKey × LogHandle)
  | begun key log => some (key, log)
  | asked _ _ => none
  | written _ _ => none

/-- A repository and the log that is handed out for it. -/
def handout? : BoardEvent → Option (RepositoryKey × LogHandle)
  | begun key log => some (key, log)
  | asked key log => some (key, log)
  | written _ _ => none

/-- The logs that were handed out, with their repositories. -/
def handouts (t : List BoardEvent) : List (RepositoryKey × LogHandle) :=
  t.filterMap handout?

/-- The last synchronization that began, among those of some repositories: its repository and the log
that it was handed. -/
def lastBegun (t : List BoardEvent) (among : RepositoryKey → Bool) :
    Option (RepositoryKey × LogHandle) :=
  t.reverse.findSome? fun e ↦ e.begun?.filter (among ·.1)

variable {t : List BoardEvent} {e : BoardEvent} {among : RepositoryKey → Bool}
  {x : RepositoryKey × LogHandle}

theorem lastBegun_concat (t : List BoardEvent) (e : BoardEvent) (among : RepositoryKey → Bool) :
    lastBegun (t ++ [e]) among = (e.begun?.filter (among ·.1)).or (lastBegun t among) := by
  rw [lastBegun, List.reverse_append, List.reverse_singleton, List.singleton_append,
    List.findSome?_cons]
  cases e.begun?.filter (among ·.1) <;> rfl

theorem lastBegun_concat_of_none (h : e.begun? = none) (t : List BoardEvent) :
    lastBegun (t ++ [e]) = lastBegun t := by
  funext among
  rw [lastBegun_concat, h]
  rfl

theorem handout?_of_begun? (h : e.begun? = some x) : e.handout? = some x := by
  cases e <;> simp_all [begun?, handout?]

/-- The last synchronization that began is one that was handed a log. -/
theorem mem_handouts_of_lastBegun (h : lastBegun t among = some x) : x ∈ handouts t := by
  obtain ⟨e, he, hx⟩ := List.exists_of_findSome?_eq_some h
  obtain ⟨hbegun, -⟩ := Option.filter_eq_some_iff.mp hx
  exact List.mem_filterMap.mpr ⟨e, List.mem_reverse.mp he, handout?_of_begun? hbegun⟩

theorem mem_handouts_concat :
    x ∈ handouts (t ++ [e]) ↔ x ∈ handouts t ∨ e.handout? = some x := by
  simp [handouts]

end BoardEvent

namespace ProgressBoard

open BoardEvent

variable {b : ProgressBoard} {key : RepositoryKey} {log other : LogHandle}
  {f : ProgressLog → ProgressLog}

/-! ### The logs of a board -/

/-- The repositories that have a log, in the order of the places of their logs. -/
def keys (b : ProgressBoard) : List RepositoryKey := b.logs.map Prod.fst

theorem handle?_eq_some :
    b.handle? key = some log ↔ b.logs.findIdx? (·.1 = key) = some log.place := by
  obtain ⟨place⟩ := log
  simp [handle?]

theorem handle?_eq_none : b.handle? key = none ↔ key ∉ b.keys := by
  simp only [handle?, keys, Option.map_eq_none_iff, List.findIdx?_eq_none_iff, List.mem_map,
    decide_eq_false_iff_not]
  exact ⟨fun h ⟨entry, hentry, hkey⟩ ↦ h entry hentry hkey, fun h entry hentry hkey ↦
    h ⟨entry, hentry, hkey⟩⟩

/-- The log of a repository has the place of the repository. -/
theorem keys_of_handle? (h : b.handle? key = some log) : b.keys[log.place]? = some key := by
  obtain ⟨hlt, hkey, -⟩ := List.findIdx?_eq_some_iff_getElem.mp (handle?_eq_some.mp h)
  rw [keys, List.getElem?_map, List.getElem?_eq_getElem hlt]
  exact congrArg some (of_decide_eq_true hkey)

/-- No repository has two logs, so the one at its place is the one that is found. -/
theorem handle?_of_keys (hnodup : b.keys.Nodup) (h : b.keys[log.place]? = some key) :
    b.handle? key = some log := by
  cases hfound : b.handle? key with
  | none => exact absurd (List.mem_of_getElem? h) (handle?_eq_none.mp hfound)
  | some found =>
    have hplace := keys_of_handle? hfound
    obtain ⟨hlt, hkey⟩ := List.getElem?_eq_some_iff.mp h
    obtain ⟨hlt', hkey'⟩ := List.getElem?_eq_some_iff.mp hplace
    have hsame : found.place = log.place :=
      (hnodup.getElem_inj_iff).mp (hkey'.trans hkey.symm)
    exact congrArg (some ∘ LogHandle.mk) hsame

/-- The place of a repository in a list of logs: what is found of the repository stands there, and
whoever changes it there has put another log of the repository into the list. -/
theorem lookup_of_findIdx? {logs : List (RepositoryKey × ProgressLog)} {place : Nat}
    (h : logs.findIdx? (·.1 = key) = some place) :
    ∃ l, logs.lookup key = some l ∧ logs[place]?.map Prod.snd = some l ∧
      logs.modify place (Prod.map id f) = putLog key (f l) logs := by
  induction logs generalizing place with
  | nil => simp at h
  | cons entry rest ih =>
    obtain ⟨k, old⟩ := entry
    by_cases hk : k = key
    · subst hk
      obtain rfl : 0 = place := by simpa [List.findIdx?_cons] using h
      exact ⟨old, by simp, rfl, by simp [putLog]⟩
    · obtain ⟨place, hplace, rfl⟩ : ∃ n, rest.findIdx? (·.1 = key) = some n ∧ n + 1 = place := by
        simpa [List.findIdx?_cons, hk] using h
      obtain ⟨l, hlookup, hread, hput⟩ := ih hplace
      refine ⟨l, ?_, by simpa using hread, by simp [putLog, hk, hput]⟩
      rw [List.lookup_cons, beq_false_of_ne (Ne.symm hk)]
      exact hlookup

/-- What is read from the log of a repository that was handed out is its log. -/
theorem read?_of_handle? (h : b.handle? key = some log) : b.read? log = some (b.log key) := by
  obtain ⟨l, hlookup, hread, -⟩ := lookup_of_findIdx? (f := id) (handle?_eq_some.mp h)
  rw [read?, hread, ProgressBoard.log, hlookup]
  rfl

/-- Whoever writes to the log of a repository that was handed out changes its log. -/
theorem write_eq_change (h : b.handle? key = some log) (f : ProgressLog → ProgressLog) :
    b.write log f = b.change key f := by
  obtain ⟨l, hlookup, -, hput⟩ := lookup_of_findIdx? (f := f) (handle?_eq_some.mp h)
  simp only [write, change, ProgressBoard.log, hlookup, hput, Option.getD_some]

theorem log_of_notMem (h : key ∉ b.keys) : b.log key = .fresh := by
  have hlookup : b.logs.lookup key = none := by
    rw [List.lookup_eq_none_iff]
    intro entry hentry
    simpa using fun hkey ↦ h (List.mem_map.mpr ⟨entry, hentry, hkey.symm⟩)
  rw [ProgressBoard.log, hlookup]
  rfl

/-! ### Writing to a log -/

@[simp]
theorem keys_write (b : ProgressBoard) (log : LogHandle) (f : ProgressLog → ProgressLog) :
    (b.write log f).keys = b.keys := by
  refine List.ext_getElem? fun place ↦ ?_
  simp only [keys, write, List.getElem?_map, List.getElem?_modify]
  split <;> cases b.logs[place]? <;> rfl

theorem read?_write_self (b : ProgressBoard) (log : LogHandle) (f : ProgressLog → ProgressLog) :
    (b.write log f).read? log = (b.read? log).map f := by
  simp only [read?, write, List.getElem?_modify, if_true]
  cases b.logs[log.place]? <;> rfl

theorem read?_write_of_ne (h : other ≠ log) : (b.write log f).read? other = b.read? other := by
  have hplace : log.place ≠ other.place := fun hsame ↦ h (congrArg LogHandle.mk hsame.symm)
  simp only [read?, write, List.getElem?_modify, if_neg hplace, id_map']

/-! ### Handing out a log -/

theorem handOut_of_handle? (h : b.handle? key = some log) : b.handOut key = (log, b) := by
  rw [handOut, h]

theorem handOut_of_notMem (h : key ∉ b.keys) :
    b.handOut key = (⟨b.logs.length⟩, { b with logs := b.logs ++ [(key, .fresh)] }) := by
  rw [handOut, handle?_eq_none.mpr h]

/-- A log is handed out for a repository that has one, or has none yet. -/
theorem handle?_eq_some_or (b : ProgressBoard) (key : RepositoryKey) :
    (∃ log, b.handle? key = some log) ∨ key ∉ b.keys := by
  cases h : b.handle? key with
  | none => exact Or.inr (handle?_eq_none.mp h)
  | some log => exact Or.inl ⟨log, rfl⟩

/-- The log that is handed out has the place of the repository. -/
theorem keys_handOut (b : ProgressBoard) (key : RepositoryKey) :
    (b.handOut key).2.keys[(b.handOut key).1.place]? = some key := by
  rcases b.handle?_eq_some_or key with ⟨log, h⟩ | h
  · rw [handOut_of_handle? h]
    exact keys_of_handle? h
  · rw [handOut_of_notMem h]
    simp [keys]

/-- The logs that are there keep their places. -/
theorem keys_handOut_of_keys (h : b.keys[other.place]? = some key) (asked : RepositoryKey) :
    (b.handOut asked).2.keys[other.place]? = some key := by
  rcases b.handle?_eq_some_or asked with ⟨log, hasked⟩ | hasked
  · rwa [handOut_of_handle? hasked]
  · rw [handOut_of_notMem hasked, keys, List.map_append]
    exact (List.getElem?_append_left (List.getElem?_eq_some_iff.mp h).1).trans h

theorem nodup_keys_handOut (hnodup : b.keys.Nodup) (key : RepositoryKey) :
    (b.handOut key).2.keys.Nodup := by
  rcases b.handle?_eq_some_or key with ⟨log, h⟩ | h
  · rwa [handOut_of_handle? h]
  · rw [handOut_of_notMem h, keys, List.map_append, List.map_singleton, ← List.concat_eq_append]
    exact hnodup.concat h

/-- The log of a repository is handed out as it stands. -/
theorem read?_handOut_self (b : ProgressBoard) (key : RepositoryKey) :
    (b.handOut key).2.read? (b.handOut key).1 = some (b.log key) := by
  rcases b.handle?_eq_some_or key with ⟨log, h⟩ | h
  · rw [handOut_of_handle? h]
    exact read?_of_handle? h
  · rw [handOut_of_notMem h, log_of_notMem h]
    simp [read?]

theorem read?_handOut_of_ne (h : other ≠ (b.handOut key).1) :
    (b.handOut key).2.read? other = b.read? other := by
  rcases b.handle?_eq_some_or key with ⟨log, hkey⟩ | hkey
  · rw [handOut_of_handle? hkey]
  · rw [handOut_of_notMem hkey] at h ⊢
    have hplace : other.place ≠ b.logs.length := fun hsame ↦ h (congrArg LogHandle.mk hsame)
    simp only [read?, List.getElem?_append]
    split
    · rfl
    · rename_i hlt
      rw [List.getElem?_eq_none (by simp; omega), List.getElem?_eq_none (by omega)]

@[simp]
theorem latestKey_handOut (b : ProgressBoard) (key : RepositoryKey) :
    (b.handOut key).2.latestKey = b.latestKey := by
  rw [handOut]
  split <;> rfl

@[simp]
theorem latestOn_handOut (b : ProgressBoard) (key : RepositoryKey) :
    (b.handOut key).2.latestOn = b.latestOn := by
  rw [handOut]
  split <;> rfl

/-! ### Beginning a synchronization -/

@[simp]
theorem keys_handOutBegun (b : ProgressBoard) (key : RepositoryKey) :
    (b.handOutBegun key).2.keys = (b.handOut key).2.keys :=
  keys_write ..

theorem read?_handOutBegun_self (b : ProgressBoard) (key : RepositoryKey) :
    (b.handOutBegun key).2.read? (b.handOutBegun key).1 = some (b.log key).reset := by
  refine (read?_write_self _ _ _).trans ?_
  exact congrArg (Option.map _) (b.read?_handOut_self key)

theorem read?_handOutBegun_of_ne (h : other ≠ (b.handOutBegun key).1) :
    (b.handOutBegun key).2.read? other = b.read? other :=
  (read?_write_of_ne h).trans (read?_handOut_of_ne h)

theorem putLog_of_notMem {logs : List (RepositoryKey × ProgressLog)} (h : key ∉ logs.map Prod.fst)
    (l : ProgressLog) : putLog key l logs = logs ++ [(key, l)] := by
  induction logs with
  | nil => rfl
  | cons entry rest ih =>
    have hne := List.ne_of_not_mem_cons h
    rw [putLog, if_neg hne.symm, ih (List.not_mem_of_not_mem_cons h), List.cons_append]

/-- A synchronization that is handed its log begins. -/
theorem handOutBegun_eq_begin (b : ProgressBoard) (key : RepositoryKey) :
    (b.handOutBegun key).2 = b.begin key := by
  rcases b.handle?_eq_some_or key with ⟨log, h⟩ | h
  · rw [handOutBegun, handOut_of_handle? h, begin, ← write_eq_change h]
    rfl
  · simp only [handOutBegun, handOut_of_notMem h, begin, change, write, log_of_notMem h,
      putLog_of_notMem h]
    simp [List.modify_eq_take_cons_drop]

/-! ### What is done with a board -/

/-- What is done with a board. Readers that look at logs, or ask for the last one, leave it as it is. -/
inductive Step (b : ProgressBoard) : BoardEvent → ProgressBoard → Prop
  | begin (key : RepositoryKey) :
      Step b (.begun key (b.handOutBegun key).1) (b.handOutBegun key).2
  | ask (key : RepositoryKey) : Step b (.asked key (b.handOut key).1) (b.handOut key).2
  | write (log : LogHandle) (f : ProgressLog → ProgressLog) :
      Step b (.written log f) (b.write log f)

/-- The host that a resource names, if it names one. -/
def hostOf? (resource : Option String) : Option String :=
  (resource.map fun r ↦ (RepositoryKey.normalize r "").resource).filter (· ≠ "")

/-- Whether a repository is meant by a resource: any repository, unless the resource names a host. -/
def isMeant (resource : Option String) : RepositoryKey → Bool :=
  match hostOf? resource with
  | some host => fun key ↦ key.resource = host
  | none => fun _ ↦ true

theorem isMeant_of_host {resource : String}
    (h : (RepositoryKey.normalize resource "").resource ≠ "") :
    isMeant (some resource) =
      fun key ↦ decide (key.resource = (RepositoryKey.normalize resource "").resource) := by
  simp [isMeant, hostOf?, Option.filter_some, h]

theorem isMeant_of_hostless {resource : String}
    (h : (RepositoryKey.normalize resource "").resource = "") :
    isMeant (some resource) = isMeant none := by
  simp [isMeant, hostOf?, Option.filter_some, h]

/-- How a board stands to what was done with it. -/
structure Sound (t : List BoardEvent) (b : ProgressBoard) : Prop where
  nodup : b.keys.Nodup
  /-- Every log that was handed out still has the place of its repository. -/
  stands : ∀ x ∈ handouts t, b.keys[x.2.place]? = some x.1
  latestKey : b.latestKey = (lastBegun t fun _ ↦ true).map Prod.fst
  latestOn : ∀ host, b.latestOn.lookup host = (lastBegun t (·.resource = host)).map Prod.fst

theorem sound_empty : Sound [] empty where
  nodup := .nil
  stands := nofun
  latestKey := rfl
  latestOn _ := rfl

namespace Sound

variable {t : List BoardEvent} {e : BoardEvent} {b b' : ProgressBoard}

/-- What was handed out before, and is handed out now, has its place. -/
theorem stands_handOut (h : Sound t b) {key : RepositoryKey}
    (he : e.handout? = some (key, (b.handOut key).1)) (x : RepositoryKey × LogHandle)
    (hx : x ∈ handouts (t ++ [e])) : (b.handOut key).2.keys[x.2.place]? = some x.1 := by
  rcases mem_handouts_concat.mp hx with hx | hx
  · exact keys_handOut_of_keys (h.stands x hx) key
  · obtain rfl := Option.some.inj (he.symm.trans hx)
    exact b.keys_handOut key

/-- Every step keeps the board sound. -/
theorem step (h : Sound t b) (hstep : Step b e b') : Sound (t ++ [e]) b' := by
  cases hstep with
  | begin key =>
    refine ⟨?_, fun x hx ↦ ?_, ?_, fun host ↦ ?_⟩
    · rw [keys_handOutBegun]
      exact nodup_keys_handOut h.nodup key
    · rw [keys_handOutBegun]
      exact h.stands_handOut rfl x hx
    · rw [lastBegun_concat]
      rfl
    · -- The repository comes first of those on its host.
      change List.lookup host ((key.resource, key) :: (b.handOut key).2.latestOn) = _
      rw [lastBegun_concat, latestOn_handOut, List.lookup_cons]
      by_cases hhost : key.resource = host
      · simp [begun?, hhost, Option.filter_some]
      · simp [begun?, hhost, Option.filter_some, beq_false_of_ne (Ne.symm hhost), h.latestOn host]
  | ask key =>
    have hsame : lastBegun (t ++ [.asked key (b.handOut key).1]) = lastBegun t :=
      lastBegun_concat_of_none rfl t
    refine ⟨nodup_keys_handOut h.nodup key, h.stands_handOut rfl, ?_, fun host ↦ ?_⟩
    · rw [latestKey_handOut, hsame]
      exact h.latestKey
    · rw [latestOn_handOut, hsame]
      exact h.latestOn host
  | write log f =>
    have hsame : lastBegun (t ++ [.written log f]) = lastBegun t := lastBegun_concat_of_none rfl t
    refine ⟨?_, fun x hx ↦ ?_, ?_, fun host ↦ ?_⟩
    · rw [keys_write]
      exact h.nodup
    · rw [keys_write]
      exact h.stands x ((mem_handouts_concat.mp hx).resolve_right nofun)
    · rw [hsame]
      exact h.latestKey
    · rw [hsame]
      exact h.latestOn host

/-- What is the last is the repository whose synchronization began last, among those that are meant. -/
theorem latest?_eq (h : Sound t b) (resource : Option String) :
    b.latest? resource = (lastBegun t (isMeant resource)).map Prod.fst := by
  have hlatest : b.latest? resource =
      match hostOf? resource with
      | some host => b.latestOn.lookup host
      | none => b.latestKey := rfl
  rw [hlatest, isMeant]
  cases hostOf? resource with
  | some host => exact h.latestOn host
  | none => exact h.latestKey

/-- The board has the log of the repository that is the last. -/
theorem latestLog?_eq (h : Sound t b) (resource : Option String) :
    b.latestLog? resource = (lastBegun t (isMeant resource)).map Prod.snd := by
  rw [latestLog?, h.latest?_eq]
  cases hlast : lastBegun t (isMeant resource) with
  | none => rfl
  | some x => exact handle?_of_keys h.nodup (h.stands x (mem_handouts_of_lastBegun hlast))

end Sound

theorem sound_of_run {t : List BoardEvent} (h : Run Step empty t b) : Sound t b :=
  Run.invariant sound_empty (fun _ _ _ _ _ hsound hstep ↦ hsound.step hstep) h

/-! ### What can be relied on -/

/-- What can be relied on after what was done with a board. -/
structure Agrees (t : List BoardEvent) (b : ProgressBoard) : Prop where
  /-- A repository is handed the same log whenever it is asked for, and two repositories are handed
  different ones. -/
  handed : ∀ x ∈ handouts t, ∀ y ∈ handouts t, x.2 = y.2 ↔ x.1 = y.1
  /-- What is read from a log that was handed out is the log of its repository, -/
  read : ∀ x ∈ handouts t, b.read? x.2 = some (b.log x.1)
  /-- and whoever writes to it changes the log of its repository and leaves all others as they are. -/
  written : ∀ x ∈ handouts t, ∀ f, b.write x.2 f = b.change x.1 f ∧
    ∀ other ≠ x.2, (b.write x.2 f).read? other = b.read? other
  /-- The log that is shown last is that of the repository whose synchronization began last. -/
  latest : b.latestLog? none = (lastBegun t fun _ ↦ true).map Prod.snd
  /-- On a host, however it is spelled, it is that of the repository of the host whose
  synchronization began last; there is none when there was no synchronization on this host. -/
  latestOn : ∀ resource host, (RepositoryKey.normalize resource "").resource = host → host ≠ "" →
    b.latestLog? (some resource) = (lastBegun t (·.resource = host)).map Prod.snd
  latestHostless : ∀ resource, (RepositoryKey.normalize resource "").resource = "" →
    b.latestLog? (some resource) = b.latestLog? none
  /-- A synchronization that begins empties the log of its repository and leaves all others as they
  are. -/
  begun : ∀ key, (b.handOutBegun key).2 = b.begin key ∧
    ((b.handOutBegun key).2.read? (b.handOutBegun key).1).map (·.snapshot) = some .empty ∧
    ∀ other ≠ (b.handOutBegun key).1, (b.handOutBegun key).2.read? other = b.read? other
  /-- Whoever asks for a log finds it as it was and changes nothing that was there. -/
  asked : ∀ key, (b.handOut key).2.read? (b.handOut key).1 = some (b.log key) ∧
    (∀ other ≠ (b.handOut key).1, (b.handOut key).2.read? other = b.read? other) ∧
    ∀ resource, (b.handOut key).2.latestLog? resource = b.latestLog? resource

/-- Whatever is done with a board: equal keys are always handed the same log and different keys
different ones, what is done with logs that were handed out is what is done with the logs of their
repositories, and the last log is that of the synchronization that began last, altogether or on a
host. A synchronization that begins empties its log and no other; asking for a log changes neither a
log nor which one is the last. -/
theorem agrees_of_run {t : List BoardEvent} (h : Run Step empty t b) : Agrees t b := by
  have hsound := sound_of_run h
  have hhandle : ∀ x ∈ handouts t, b.handle? x.1 = some x.2 := fun x hx ↦
    handle?_of_keys hsound.nodup (hsound.stands x hx)
  refine ⟨fun x hx y hy ↦ ⟨fun hlog ↦ ?_, fun hkey ↦ ?_⟩, fun x hx ↦ read?_of_handle? (hhandle x hx),
    fun x hx f ↦ ⟨write_eq_change (hhandle x hx) f, fun _ ↦ read?_write_of_ne⟩, ?_, ?_, ?_,
    fun key ↦ ⟨b.handOutBegun_eq_begin key, ?_, fun _ ↦ read?_handOutBegun_of_ne⟩,
    fun key ↦ ⟨b.read?_handOut_self key, fun _ ↦ read?_handOut_of_ne, fun resource ↦ ?_⟩⟩
  · have hx := hsound.stands x hx
    rw [hlog, hsound.stands y hy] at hx
    exact (Option.some.inj hx).symm
  · have hx := hhandle x hx
    rw [hkey, hhandle y hy] at hx
    exact (Option.some.inj hx).symm
  · exact hsound.latestLog?_eq none
  · rintro resource host rfl hhost
    rw [hsound.latestLog?_eq, isMeant_of_host hhost]
  · intro resource hhost
    rw [hsound.latestLog?_eq, hsound.latestLog?_eq, isMeant_of_hostless hhost]
  · rw [read?_handOutBegun_self]
    rfl
  · rw [(hsound.step (.ask key)).latestLog?_eq, hsound.latestLog?_eq,
      lastBegun_concat_of_none rfl t]

/-- Two repositories on two hosts are synchronized one after the other. The log of the first one is the
last on its host, with what was written to it before the second one began. -/
theorem agrees_two_hosts : ∃ t b, Run Step empty t b ∧ Agrees t b ∧
    handouts t = [(⟨"github.com", "o/r"⟩, ⟨0⟩), (⟨"gitlab.com", "o/lib"⟩, ⟨1⟩),
      (⟨"github.com", "o/r"⟩, ⟨0⟩)] ∧
    b.latestLog? none = some ⟨1⟩ ∧ b.latestLog? (some " https://GitHub.com/o ") = some ⟨0⟩ ∧
    b.latestLog? (some "bitbucket.org") = none ∧
    (b.read? ⟨0⟩).map (·.snapshot) = some ⟨"Cloning\n", false, false⟩ ∧
    (b.read? ⟨1⟩).map (·.snapshot) = some ⟨"", true, false⟩ := by
  have hnil : Run Step empty [] empty := .nil
  have hfirst := (hnil.snoc (.begin ⟨"github.com", "o/r"⟩)).snoc (.write ⟨0⟩ (·.append "Cloning\n"))
  have hboth := (hfirst.snoc (.begin ⟨"gitlab.com", "o/lib"⟩)).snoc (.write ⟨1⟩ (·.finish false))
  have hrun := hboth.snoc (.ask ⟨"github.com", "o/r"⟩)
  exact ⟨_, _, hrun, agrees_of_run hrun, by decide +kernel, by decide +kernel, by decide +kernel,
    by decide +kernel, by decide +kernel, by decide +kernel⟩

end ProgressBoard

end CodeNav
