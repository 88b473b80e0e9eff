import CodeNav.Proofs.Lock.Parts
import CodeNav.Proofs.Sync.Logs
import CodeNav.Proofs.Sync.Shared

/-!
# The part of one repository

The checkouts of one repository are a *part* of all checkouts: they have its log and its locks, and files in
which its checkout is the same. A call on the repository comes to the same in the part, and a call on another
one leaves the part alone.

## Main definitions

* `Checkouts.Part`: the checkouts of a repository as a part of all checkouts
* `CheckoutCall.Matches`: the same call in the part
* `Checkouts.Follows`: what is done with checkouts and with a part of them

## Main statements

* `CheckoutCall.matches_begin`, `CheckoutCall.matches_turn`, `CheckoutCall.matches_drop`: calls on the
  repository come to the same in the part
* `CheckoutCall.beside_begin`, `CheckoutCall.beside_moves`, `CheckoutCall.beside_returns`,
  `CheckoutCall.beside_drop`: other calls leave the part alone
-/

namespace CodeNav

variable {o : SyncOptions} {E : o.Estate} {key : RepositoryKey} {hkey : E.used key} {own own' : List Nat}
  {c c' c₁ c₁' : Checkouts} {place place' : PathLocks.Place} {now : Nat} {news : SyncNews}

/-! ### Calls in the part -/

/-- The same phase of a synchronization in the part. -/
inductive SyncPhase.Matches (own : List Nat) : SyncPhase → SyncPhase → Prop
  | looking : Matches own .looking .looking
  | looked (present : Bool) : Matches own (.looked present) (.looked present)
  | waiting {a b : PathLocks.Place} (h : a.Matches own b) : Matches own (.waiting a) (.waiting b)
  | checking {a b : PathLocks.Place} (h : a.Matches own b) : Matches own (.checking a) (.checking b)
  | checked {a b : PathLocks.Place} (present : Bool) (h : a.Matches own b) :
      Matches own (.checked a present) (.checked b present)
  | preparing {a b : PathLocks.Place} (h : a.Matches own b) : Matches own (.preparing a) (.preparing b)
  | running {a b : PathLocks.Place} (run : SyncRun) (h : a.Matches own b) :
      Matches own (.running a run) (.running b run)
  | invalidating {a b : PathLocks.Place} (action : SyncAction) (built : Bool) (h : a.Matches own b) :
      Matches own (.invalidating a action built) (.invalidating b action built)

/-- The same phase of a removal in the part. -/
inductive RemovalPhase.Matches (own : List Nat) : RemovalPhase → RemovalPhase → Prop
  | waiting {a b : PathLocks.Place} (h : a.Matches own b) : Matches own (.waiting a) (.waiting b)
  | checking {a b : PathLocks.Place} (h : a.Matches own b) : Matches own (.checking a) (.checking b)
  | removing {a b : PathLocks.Place} (h : a.Matches own b) : Matches own (.removing a) (.removing b)
  | invalidating {n i : Nat} (h : own[i]? = some n) : Matches own (.invalidating n) (.invalidating i)

namespace CheckoutCall

/-- The same call in the part. -/
inductive Matches (own : List Nat) : CheckoutCall → CheckoutCall → Prop
  | sync (t : SyncTask) {phase phase' : SyncPhase} (h : phase.Matches own phase') :
      Matches own (.sync ⟨t, phase⟩) (.sync ⟨t, phase'⟩)
  | removal (key : RepositoryKey) (path : Path) {phase phase' : RemovalPhase} (h : phase.Matches own phase') :
      Matches own (.removal ⟨key, path, phase⟩) (.removal ⟨key, path, phase'⟩)

/-- Whether the folder above the checkout is there when the call has come so far. -/
def needsFolder : CheckoutCall → Bool
  | sync ⟨_, .checked _ true⟩ => true
  | sync ⟨_, .running _ _⟩ => true
  | _ => false

variable {k k' : CheckoutCall}

theorem Matches.mono (h : k.Matches own k') (hown : own <+: own') : k.Matches own' k' := by
  cases h with
  | sync t h =>
    refine .sync t ?_
    cases h with
    | looking => exact .looking
    | looked present => exact .looked present
    | waiting h => exact .waiting (h.mono hown)
    | checking h => exact .checking (h.mono hown)
    | checked present h => exact .checked present (h.mono hown)
    | preparing h => exact .preparing (h.mono hown)
    | running run h => exact .running run (h.mono hown)
    | invalidating action built h => exact .invalidating action built (h.mono hown)
  | removal key path h =>
    refine .removal key path ?_
    cases h with
    | waiting h => exact .waiting (h.mono hown)
    | checking h => exact .checking (h.mono hown)
    | removing h => exact .removing (h.mono hown)
    | @invalidating n i h =>
      obtain ⟨more, rfl⟩ := hown
      exact .invalidating (by rw [List.getElem?_append_left (List.getElem?_eq_some_iff.mp h).1, h])

/-- The slot of a call is there in the part. -/
theorem Matches.slot_mem (h : k.Matches own k') {a : LockSeat} (ha : k.seat? = some a) : a.slot ∈ own := by
  cases h with
  | sync t h =>
    cases h with
    | looking => cases ha
    | looked => cases ha
    | waiting h => exact Option.some.inj ha ▸ List.mem_of_getElem? h.slot
    | checking h => exact Option.some.inj ha ▸ List.mem_of_getElem? h.slot
    | checked present h => exact Option.some.inj ha ▸ List.mem_of_getElem? h.slot
    | preparing h => exact Option.some.inj ha ▸ List.mem_of_getElem? h.slot
    | running run h => exact Option.some.inj ha ▸ List.mem_of_getElem? h.slot
    | invalidating action built h => exact Option.some.inj ha ▸ List.mem_of_getElem? h.slot
  | removal key path h =>
    cases h with
    | waiting h => exact Option.some.inj ha ▸ List.mem_of_getElem? h.slot
    | checking h => exact Option.some.inj ha ▸ List.mem_of_getElem? h.slot
    | removing h => exact Option.some.inj ha ▸ List.mem_of_getElem? h.slot
    | invalidating h => exact Option.some.inj ha ▸ List.mem_of_getElem? h

theorem Matches.same (h : k.Matches own k') : k'.key = k.key ∧ k'.path = k.path ∧ k'.wants = k.wants := by
  cases h with
  | sync t h => cases h <;> exact ⟨rfl, rfl, rfl⟩
  | removal key path h => cases h <;> exact ⟨rfl, rfl, rfl⟩

end CheckoutCall

/-! ### The part -/

namespace Checkouts

/-- The checkouts `c'` are those that `c` has of a repository. -/
structure Part (E : o.Estate) (hkey : E.used key) (own : List Nat) (c c' : Checkouts) : Prop where
  files : E.Twins key hkey c.fs c'.fs
  locks : c.locks.Part (key.checkoutPath o.root) own c'.locks
  log : c'.board.log key = c.board.log key

/-- What is done with checkouts and with a part of them. The part may have more slots afterwards, but none
that was there before beside it, and the folder above the checkout stays. -/
structure Follows (E : o.Estate) (hkey : E.used key) (own : List Nat) (c c' : Checkouts) (own' : List Nat)
    (c₁ c₁' : Checkouts) : Prop where
  part : Part E hkey own' c₁ c₁'
  more : own <+: own'
  others : ∀ n, n < c.locks.slots.length → n ∉ own → n ∉ own'
  length : c.locks.slots.length ≤ c₁.locks.slots.length
  folder : c'.fs.isDirAt (E.plot key).folder = true → c₁'.fs.isDirAt (E.plot key).folder = true

namespace Part

variable (h : Part E hkey own c c')
include h

theorem present_eq : c.fs.present (key.checkoutPath o.root) = c'.fs.present (key.checkoutPath o.root) :=
  E.path key hkey ▸ h.files.present_eq

theorem info_eq : c'.info (key.checkoutPath o.root) = c.info (key.checkoutPath o.root) := by
  rw [info, info, ← E.path key hkey, h.files.dirTime?_eq]

/-! ### What is done in the part -/

/-- Nothing is done. -/
theorem stays : Follows E hkey own c c' own c c' :=
  ⟨h, List.prefix_refl _, fun _ _ hn ↦ hn, Nat.le_refl _, fun hdir ↦ hdir⟩

theorem onLog (f : ProgressLog → ProgressLog) : Part E hkey own (c.onLog key f) (c'.onLog key f) where
  files := h.files
  locks := h.locks
  log := by
    simp only [Checkouts.onLog, ProgressBoard.log_change, if_true, h.log]

theorem begin : Part E hkey own { c with board := c.board.begin key }
    { c' with board := c'.board.begin key } where
  files := h.files
  locks := h.locks
  log := by
    simp only [ProgressBoard.log_begin, if_true, h.log]

theorem withLocks {l l' : PathLocks SyncResult} (hl : l.Part (key.checkoutPath o.root) own' l') :
    Part E hkey own' (c.withLocks l) (c'.withLocks l') where
  files := h.files
  locks := hl
  log := h.log

theorem withFiles {f f' : FileSystem} (hf : E.Twins key hkey f f') :
    Part E hkey own { c with fs := f } { c' with fs := f' } where
  files := hf
  locks := h.locks
  log := h.log

/-- A place and its slot are given up. -/
theorem given (hplace : place.Matches own place') : Follows E hkey own c c' own (c.given place)
    (c'.given place') where
  part := h.withLocks ((h.locks.leave hplace).release hplace.slot)
  more := List.prefix_refl _
  others _ _ hn := hn
  length := by simp [Checkouts.given, Checkouts.withLocks, PathLocks.release, PathLocks.leave]
  folder hdir := hdir

/-- Work in the slot has come to an outcome. -/
theorem concluded (hplace : place.Matches own place') (r : SyncResult) :
    Follows E hkey own c c' own (c.concluded place r) (c'.concluded place' r) where
  part := h.withLocks ((h.locks.finish hplace r).release hplace.slot)
  more := List.prefix_refl _
  others _ _ hn := hn
  length := by simp [Checkouts.concluded, Checkouts.withLocks, PathLocks.release, PathLocks.finish]
  folder hdir := hdir

/-- A call arrives in the slot of the repository. -/
theorem arrive : ∃ own',
    ((c.locks.hold (key.checkoutPath o.root)).2.arrive (c.locks.hold (key.checkoutPath o.root)).1).1.Matches own'
      ((c'.locks.hold (key.checkoutPath o.root)).2.arrive (c'.locks.hold (key.checkoutPath o.root)).1).1 ∧
    Follows E hkey own c c' own'
      (c.withLocks ((c.locks.hold (key.checkoutPath o.root)).2.arrive
        (c.locks.hold (key.checkoutPath o.root)).1).2)
      (c'.withLocks ((c'.locks.hold (key.checkoutPath o.root)).2.arrive
        (c'.locks.hold (key.checkoutPath o.root)).1).2) := by
  obtain ⟨own', hmore, hslot, hhold, hothers⟩ := h.locks.hold
  obtain ⟨hplace, harrive⟩ := hhold.arrive hslot
  refine ⟨own', hplace, h.withLocks harrive, hmore, hothers, ?_, fun hdir ↦ hdir⟩
  exact (PathLocks.length_hold ..).trans (Nat.le_of_eq (PathLocks.length_arrive ..).symm)

/-! ### What is done beside the part -/

theorem onLog_beside {k : RepositoryKey} (hk : k ≠ key) (f : ProgressLog → ProgressLog) :
    Part E hkey own (c.onLog k f) c' where
  files := h.files
  locks := h.locks
  log := by
    simp only [Checkouts.onLog, ProgressBoard.log_change, if_neg hk.symm, h.log]

theorem begin_beside {k : RepositoryKey} (hk : k ≠ key) :
    Part E hkey own { c with board := c.board.begin k } c' where
  files := h.files
  locks := h.locks
  log := by
    simp only [ProgressBoard.log_begin, if_neg hk.symm, h.log]

theorem withLocks_beside {l : PathLocks SyncResult} (hl : l.Part (key.checkoutPath o.root) own c'.locks) :
    Part E hkey own (c.withLocks l) c' where
  files := h.files
  locks := hl
  log := h.log

/-- There was work on another checkout. -/
theorem withFiles_beside {k : RepositoryKey} {f : FileSystem} (hused : E.used k) (hk : k ≠ key)
    (hworks : (E.plot k).Works c.fs f) : Part E hkey own { c with fs := f } c' where
  files := h.files.beside hused hk hworks
  locks := h.locks
  log := h.log

theorem given_beside (hplace : place.slot ∉ own) : Part E hkey own (c.given place) c' :=
  h.withLocks_beside ((h.locks.change_beside hplace _).change_beside hplace _)

theorem concluded_beside (hplace : place.slot ∉ own) (r : SyncResult) :
    Part E hkey own (c.concluded place r) c' :=
  h.withLocks_beside ((h.locks.change_beside hplace _).change_beside hplace _)

/-- A call arrives in the slot of another path. -/
theorem arrive_beside {p : Path} (hp : p.same (key.checkoutPath o.root) = false) :
    ((c.locks.hold p).2.arrive (c.locks.hold p).1).1.slot ∉ own ∧
      ((c.locks.hold p).2.arrive (c.locks.hold p).1).1.slot <
        ((c.locks.hold p).2.arrive (c.locks.hold p).1).2.slots.length ∧
      c.locks.slots.length ≤ ((c.locks.hold p).2.arrive (c.locks.hold p).1).2.slots.length ∧
      Part E hkey own (c.withLocks ((c.locks.hold p).2.arrive (c.locks.hold p).1).2) c' := by
  obtain ⟨hslot, hlt, hhold⟩ := h.locks.hold_beside hp
  rw [PathLocks.length_arrive, PathLocks.arrive_slot]
  refine ⟨hslot, hlt, PathLocks.length_hold .., h.withLocks_beside ?_⟩
  simp only [PathLocks.arrive]
  split
  · exact hhold
  · exact hhold.change_beside hslot _

end Part

namespace Follows

/-- A log may be written before. -/
theorem of_onLog {f : ProgressLog → ProgressLog}
    (h : Follows E hkey own (c.onLog key f) (c'.onLog key f) own' c₁ c₁') :
    Follows E hkey own c c' own' c₁ c₁' :=
  ⟨h.part, h.more, h.others, h.length, h.folder⟩

end Follows

end Checkouts

/-! ### What calls on the repository do -/

/-- What comes of a turn is the same in the part. -/
inductive CheckoutCall.TurnMatches (E : o.Estate) (hkey : E.used key) (own : List Nat) (c c' : Checkouts) :
    Turn Checkouts CheckoutCall CheckoutReport → Turn Checkouts CheckoutCall CheckoutReport → Prop
  | parked (until? : Option Nat) : TurnMatches E hkey own c c' (.parked until?) (.parked until?)
  | moved {own' : List Nat} {k k' : CheckoutCall} {c₁ c₁' : Checkouts} (hk : k.Matches own' k')
      (hfollows : c.Follows E hkey own c' own' c₁ c₁')
      (hready : k'.needsFolder = true → c₁'.fs.isDirAt (E.plot key).folder = true) :
      TurnMatches E hkey own c c' (.moved k c₁) (.moved k' c₁')
  | finished {r : CheckoutReport} {c₁ c₁' : Checkouts} (hfollows : c.Follows E hkey own c' own c₁ c₁') :
      TurnMatches E hkey own c c' (.finished r c₁) (.finished r c₁')

namespace CheckoutCall

section Turns

variable {k k' : CheckoutCall} {t : SyncTask}

/-- A synchronization arrives in the slot. -/
theorem matches_arrive (h : c.Part E hkey own c') (t : SyncTask) (ht : t.path = key.checkoutPath o.root) :
    TurnMatches E hkey own c c'
      (.moved (.sync (Synchronization.arrive t c).1) (Synchronization.arrive t c).2)
      (.moved (.sync (Synchronization.arrive t c').1) (Synchronization.arrive t c').2) := by
  obtain ⟨own', hplace, hfollows⟩ := h.arrive
  rw [← ht] at hplace hfollows
  refine .moved (.sync t (.waiting hplace)) hfollows fun hneeds ↦ ?_
  cases hneeds

/-- Work in the slot fails. -/
theorem matches_fail (h : c.Part E hkey own c') (ht : t.address.key = key)
    (hplace : place.Matches own place') (e : SyncError) :
    TurnMatches E hkey own c c'
      ((Synchronization.failWith t place e c).map .sync fun r c ↦ .finished (.synchronized r) c)
      ((Synchronization.failWith t place' e c').map .sync fun r c ↦ .finished (.synchronized r) c) := by
  subst ht
  exact .finished ((h.onLog _).concluded hplace _).of_onLog

/-- A command has ended. -/
theorem matches_commandEnded (h : c.Part E hkey own c') (ht : t.address.key = key)
    (hplace : place.Matches own place') (hfolder : c'.fs.isDirAt (E.plot key).folder = true)
    (run : SyncRun) (status : Except String CommandStatus) :
    TurnMatches E hkey own c c'
      ((Synchronization.commandEnded o t now place run status c).map .sync
        fun r c ↦ .finished (.synchronized r) c)
      ((Synchronization.commandEnded o t now place' run status c').map .sync
        fun r c ↦ .finished (.synchronized r) c) := by
  have hsucceed (built : Bool) : TurnMatches E hkey own c c'
      ((Synchronization.succeed t place run.action built c).map .sync
        fun r c ↦ .finished (.synchronized r) c)
      ((Synchronization.succeed t place' run.action built c').map .sync
        fun r c ↦ .finished (.synchronized r) c) := by
    subst ht
    exact .moved (.sync t (.invalidating _ _ hplace)) (h.onLog _).stays.of_onLog (by simp [needsFolder])
  simp only [Synchronization.commandEnded]
  cases status with
  | error reason => exact matches_fail h ht hplace _
  | ok status =>
    simp only
    split
    · simp only [Synchronization.commandSucceeded]
      split
      · exact hsucceed true
      · split
        · exact hsucceed false
        · subst ht
          exact .moved (.sync t (.running _ hplace)) (h.onLog _).stays.of_onLog fun _ ↦ hfolder
    · split
      · exact matches_fail h ht hplace _
      · exact matches_fail h ht hplace _

/-- A synchronization of the repository goes on in the same way in the part. -/
theorem matches_sync {phase phase' : SyncPhase} (h : c.Part E hkey own c') (hphase : phase.Matches own phase')
    (hkk : t.address.key = key) (hpath : t.path = key.checkoutPath o.root)
    (hready : needsFolder (.sync ⟨t, phase'⟩) = true → c'.fs.isDirAt (E.plot key).folder = true) :
    TurnMatches E hkey own c c' (turn o now news (.sync ⟨t, phase⟩) c)
      (turn o now news (.sync ⟨t, phase'⟩) c') := by
  have hpresent : c.fs.present t.path = c'.fs.present t.path := hpath ▸ h.present_eq
  cases hphase with
  | looking =>
    change TurnMatches E hkey own c c' (.moved (.sync ⟨t, .looked (c.fs.present t.path)⟩) c)
      (.moved (.sync ⟨t, .looked (c'.fs.present t.path)⟩) c')
    rw [hpresent]
    exact .moved (.sync t (.looked _)) h.stays (by simp [needsFolder])
  | looked present =>
    have hheld : c'.locks.isHeld t.path = c.locks.isHeld t.path := hpath ▸ h.locks.isHeld_eq
    simp only [turn, Synchronization.turn, hheld]
    split
    · exact .finished h.stays
    · exact matches_arrive h t hpath
  | waiting hplace =>
    simp only [turn, Synchronization.turn, h.locks.admission_eq hplace]
    split
    · exact .parked none
    · exact .moved (.sync t (.checking hplace)) h.stays (by simp [needsFolder])
    · exact .finished (h.given hplace)
  | @checking a b hplace =>
    change TurnMatches E hkey own c c' (.moved (.sync ⟨t, .checked a (c.fs.present t.path)⟩) c)
      (.moved (.sync ⟨t, .checked b (c'.fs.present t.path)⟩) c')
    rw [hpresent]
    refine .moved (.sync t (.checked _ hplace)) h.stays fun hneeds ↦ ?_
    have hthere : c'.fs.present t.path = true := by
      cases hp : c'.fs.present t.path with
      | true => rfl
      | false =>
        rw [hp] at hneeds
        cases hneeds
    refine h.files.isDirAt_of_present ?_
    rwa [E.path key hkey, ← hpath]
  | checked present hplace =>
    subst hkk
    have hbegin := h.begin.stays
    simp only [turn, Synchronization.turn]
    split
    · exact .finished (h.concluded hplace _)
    · split
      · rename_i hthere
        subst hthere
        exact .moved (.sync t (.running _ hplace)) ⟨hbegin.part, hbegin.more, hbegin.others, hbegin.length,
          hbegin.folder⟩ fun _ ↦ hready rfl
      · exact .moved (.sync t (.preparing hplace)) ⟨hbegin.part, hbegin.more, hbegin.others, hbegin.length,
          hbegin.folder⟩ (by simp [needsFolder])
  | preparing hplace =>
    obtain ⟨p, hp, habove⟩ := h.files.makeAbove
    rw [E.path key hkey, ← hpath] at hp
    simp only [turn, Synchronization.turn, hp]
    rcases habove with ⟨f, f', hf, hf', htwins, hfolder⟩ | ⟨cause, hf, hf'⟩
    · simp only [hf, hf']
      exact .moved (.sync t (.running _ hplace)) ⟨h.withFiles htwins, List.prefix_refl _,
        fun _ _ hn ↦ hn, Nat.le_refl _, fun _ ↦ hfolder⟩ fun _ ↦ hfolder
    · simp only [hf, hf']
      exact matches_fail h hkk hplace _
  | running run hplace =>
    simp only [turn, Synchronization.turn]
    split
    · exact matches_commandEnded h hkk hplace (hready rfl) run _
    · split
      · exact .parked none
      · split
        · exact matches_fail h hkk hplace _
        · exact .parked _
  | invalidating action built hplace =>
    simp only [turn, Synchronization.turn]
    split
    · exact .finished (h.concluded hplace _)
    · exact .parked none

/-- A removal of the checkout of the repository goes on in the same way in the part. -/
theorem matches_removal {path : Path} {phase phase' : RemovalPhase} (h : c.Part E hkey own c')
    (hphase : phase.Matches own phase') (hpath : path = key.checkoutPath o.root) (k : RepositoryKey) :
    TurnMatches E hkey own c c' (turn o now news (.removal ⟨k, path, phase⟩) c)
      (turn o now news (.removal ⟨k, path, phase'⟩) c') := by
  cases hphase with
  | waiting hplace =>
    simp only [turn, Removal.turn, h.locks.admission_eq hplace]
    split
    · exact .parked none
    · exact .moved (.removal k path (.checking hplace)) h.stays (by simp [needsFolder])
  | checking hplace =>
    have hpresent : c.fs.present path = c'.fs.present path := hpath ▸ h.present_eq
    simp only [turn, Removal.turn, hpresent]
    split
    · exact .moved (.removal k path (.removing hplace)) h.stays (by simp [needsFolder])
    · exact .finished (h.given hplace)
  | removing hplace =>
    obtain ⟨r, f, f', hf, hf', htwins⟩ := h.files.removeTree
    have hfolder : c'.fs.isDirAt (E.plot key).folder = true → f'.isDirAt (E.plot key).folder = true :=
      (h.files.sound_right.works_removeTree hf').isDirAt
        (FileSystem.Plot.not_place_prefix (List.prefix_refl _))
    have hfiles := h.withFiles htwins
    rw [E.path key hkey, ← hpath] at hf hf'
    simp only [turn, Removal.turn, hf, hf']
    cases r with
    | error cause =>
      have hgiven := hfiles.given hplace
      exact .finished ⟨hgiven.part, hgiven.more, hgiven.others, hgiven.length, hfolder⟩
    | ok =>
      refine .moved (.removal k path (.invalidating hplace.slot))
        ⟨hfiles.withLocks (h.locks.leave hplace), List.prefix_refl _, fun _ _ hn ↦ hn, ?_, hfolder⟩
        (by simp [needsFolder])
      simp [Checkouts.withLocks, PathLocks.leave]
  | invalidating hslot =>
    simp only [turn, Removal.turn]
    split
    · refine .finished ⟨h.withLocks (h.locks.release hslot), List.prefix_refl _, fun _ _ hn ↦ hn, ?_,
        fun hdir ↦ hdir⟩
      simp [Checkouts.withLocks, PathLocks.release]
    · exact .parked none

variable (now news) in
/-- A call on the repository goes on in the same way in the part. -/
theorem matches_turn (h : c.Part E hkey own c') (hk : k.Matches own k') (hkk : k.key = key)
    (hpath : k.path = key.checkoutPath o.root)
    (hready : k'.needsFolder = true → c'.fs.isDirAt (E.plot key).folder = true) :
    TurnMatches E hkey own c c' (k.turn o now news c) (k'.turn o now news c') := by
  cases hk with
  | sync t hphase => exact matches_sync h hphase hkk hpath hready
  | removal k path hphase => exact matches_removal h hphase hpath k

/-- A call on the repository begins in the same way in the part. -/
theorem matches_begin {order : CheckoutOrder} (h : c.Part E hkey own c')
    (hbegin : order.begin o c = (.inl k, c₁)) (hkk : k.key = key) :
    ∃ own' k' c₁', order.begin o c' = (.inl k', c₁') ∧ k.Matches own' k' ∧
      c.Follows E hkey own c' own' c₁ c₁' ∧ k'.needsFolder = false := by
  cases order with
  | synchronize url force token =>
    simp only [CheckoutOrder.begin, Synchronization.begin] at hbegin ⊢
    split at hbegin
    · simp at hbegin
    · rename_i address path hlocate
      obtain ⟨-, hpath⟩ := locate_eq_ok hlocate
      cases force with
      | false =>
        obtain ⟨hk, rfl⟩ := Prod.mk.inj hbegin
        obtain rfl := Sum.inl.inj hk
        exact ⟨own, _, c', rfl, .sync _ .looking, h.stays, rfl⟩
      | true =>
        obtain ⟨hk, rfl⟩ := Prod.mk.inj hbegin
        obtain rfl := Sum.inl.inj hk
        have hkk : address.key = key := hkk
        rw [hkk] at hpath
        obtain ⟨own', hplace, hfollows⟩ := h.arrive
        rw [← hpath] at hplace hfollows
        exact ⟨own', _, _, rfl, .sync _ (.waiting hplace), hfollows, rfl⟩
  | remove url =>
    simp only [CheckoutOrder.begin, Removal.begin] at hbegin ⊢
    split at hbegin
    · simp at hbegin
    · rename_i address path hlocate
      obtain ⟨-, hpath⟩ := locate_eq_ok hlocate
      obtain ⟨hk, rfl⟩ := Prod.mk.inj hbegin
      obtain rfl := Sum.inl.inj hk
      have hkk : address.key = key := hkk
      rw [hkk] at hpath
      obtain ⟨own', hplace, hfollows⟩ := h.arrive
      rw [← hpath] at hplace hfollows
      exact ⟨own', _, _, rfl, .removal _ _ (.waiting hplace), hfollows, rfl⟩

/-- A call on the repository is given up in the same way in the part. -/
theorem matches_drop (h : c.Part E hkey own c') (hk : k.Matches own k') :
    c.Follows E hkey own c' own (k.drop c) (k'.drop c') := by
  cases hk with
  | sync t hphase =>
    cases hphase with
    | looking => exact h.stays
    | looked => exact h.stays
    | waiting hplace => exact h.given hplace
    | checking hplace => exact h.given hplace
    | checked present hplace => exact h.given hplace
    | preparing hplace => exact h.given hplace
    | running run hplace => exact h.given hplace
    | invalidating action built hplace => exact h.given hplace
  | removal k path hphase =>
    cases hphase with
    | waiting hplace => exact h.given hplace
    | checking hplace => exact h.given hplace
    | removing hplace => exact h.given hplace
    | invalidating hslot =>
      refine ⟨h.withLocks (h.locks.release hslot), List.prefix_refl _, fun _ _ hn ↦ hn, ?_, fun hdir ↦ hdir⟩
      simp [drop, Removal.drop, Checkouts.withLocks, PathLocks.release]

end Turns

/-! ### What other calls do -/

/-- The slot of a call, if it has one, was made, and for another repository. -/
def Beside (own : List Nat) (l : PathLocks SyncResult) (k : CheckoutCall) : Prop :=
  ∀ a, k.seat? = some a → a.slot ∉ own ∧ a.slot < l.slots.length

section Beside

variable {k k' : CheckoutCall}

theorem Beside.mono {l l' : PathLocks SyncResult} (h : k.Beside own l)
    (hothers : ∀ n, n < l.slots.length → n ∉ own → n ∉ own') (hlength : l.slots.length ≤ l'.slots.length) :
    k.Beside own' l' := by
  intro a ha
  obtain ⟨hslot, hlt⟩ := h a ha
  exact ⟨hothers _ hlt hslot, Nat.lt_of_lt_of_le hlt hlength⟩

/-- A call on another repository begins beside the part. -/
theorem Begins.beside (hbegins : k.Begins o c c₁) (h : c.Part E hkey own c')
    (hother : (k.key.checkoutPath o.root).same (key.checkoutPath o.root) = false) :
    c₁.Part E hkey own c' ∧ c.locks.slots.length ≤ c₁.locks.slots.length ∧ k.Beside own c₁.locks := by
  cases hbegins with
  | look hpath => exact ⟨h, Nat.le_refl _, by simp [Beside, seat?, SyncPhase.lockCall?]⟩
  | @arrive t hpath =>
    have hother : t.path.same (key.checkoutPath o.root) = false := hpath ▸ hother
    obtain ⟨hslot, hlt, hle, hpart⟩ := h.arrive_beside hother
    exact ⟨hpart, hle, fun a ha ↦ Option.some.inj ha ▸ ⟨hslot, hlt⟩⟩
  | remove k =>
    obtain ⟨hslot, hlt, hle, hpart⟩ := h.arrive_beside hother
    exact ⟨hpart, hle, fun a ha ↦ Option.some.inj ha ▸ ⟨hslot, hlt⟩⟩

/-- A call on another repository goes on beside the part. -/
theorem Moves.beside (hmoves : k.Moves o now c news k' c₁) (h : c.Part E hkey own c')
    (hused : E.used k.key) (hne : k.key ≠ key) (hpath : k.path = k.key.checkoutPath o.root)
    (hk : k.Beside own c.locks) :
    c₁.Part E hkey own c' ∧ c.locks.slots.length ≤ c₁.locks.slots.length ∧ k'.Beside own c₁.locks := by
  cases hmoves with
  | sync hmoves =>
    cases hmoves with
    | look => exact ⟨h, Nat.le_refl _, hk⟩
    | @arrive t present news =>
      have hpath : t.path = t.address.key.checkoutPath o.root := hpath
      obtain ⟨hslot, hlt, hle, hpart⟩ := h.arrive_beside (hpath ▸ E.differ _ _ hused hkey hne)
      exact ⟨hpart, hle, fun a ha ↦ Option.some.inj ha ▸ ⟨hslot, hlt⟩⟩
    | enter =>
      obtain ⟨hslot, hlt⟩ := hk _ rfl
      exact ⟨h, Nat.le_refl _, fun a ha ↦ Option.some.inj ha ▸ ⟨hslot, hlt⟩⟩
    | check => exact ⟨h, Nat.le_refl _, hk⟩
    | pull => exact ⟨h.begin_beside hne, Nat.le_refl _, hk⟩
    | prepare => exact ⟨h.begin_beside hne, Nat.le_refl _, hk⟩
    | @clone t place news fs hfs =>
      have hpath : t.path = t.address.key.checkoutPath o.root := hpath
      have hworks : (E.plot t.address.key).Works c.fs fs := by
        have hsound := h.files.left.plot _ hused
        rw [Checkouts.makeAbove, hpath, ← E.path t.address.key hused] at hfs
        split at hfs
        · obtain rfl := Except.ok.inj hfs
          exact .refl hsound
        · rename_i p hp
          exact hsound.works_makeDirs hp hfs
      exact ⟨h.withFiles_beside hused hne hworks, Nat.le_refl _, hk⟩
    | build => exact ⟨h.onLog_beside hne _, Nat.le_refl _, hk⟩
    | tell => exact ⟨h.onLog_beside hne _, Nat.le_refl _, hk⟩
  | removal hmoves =>
    cases hmoves with
    | enter =>
      obtain ⟨hslot, hlt⟩ := hk _ rfl
      exact ⟨h, Nat.le_refl _, fun a ha ↦ Option.some.inj ha ▸ ⟨hslot, hlt⟩⟩
    | check => exact ⟨h, Nat.le_refl _, hk⟩
    | @remove k path place fs hfs =>
      have hpath : path = k.checkoutPath o.root := hpath
      obtain ⟨hslot, hlt⟩ := hk _ rfl
      rw [hpath, ← E.path k hused] at hfs
      have hfiles := h.withFiles_beside hused hne ((h.files.left.plot _ hused).works_removeTree hfs)
      refine ⟨hfiles.withLocks_beside (h.locks.change_beside hslot _), ?_, fun a ha ↦ ?_⟩
      · simp [Checkouts.withLocks, PathLocks.leave]
      · obtain rfl := Option.some.inj ha
        refine ⟨hslot, ?_⟩
        simpa [Checkouts.withLocks, PathLocks.leave] using hlt

/-- A call on another repository comes to its end beside the part. -/
theorem Returns.beside {r : CheckoutReport} (hreturns : k.Returns o now c news r c₁) (h : c.Part E hkey own c')
    (hused : E.used k.key) (hne : k.key ≠ key) (hpath : k.path = k.key.checkoutPath o.root)
    (hk : k.Beside own c.locks) :
    c₁.Part E hkey own c' ∧ c.locks.slots.length ≤ c₁.locks.slots.length := by
  have hgiven (c : Checkouts) (place : PathLocks.Place) :
      c.locks.slots.length ≤ (c.given place).locks.slots.length := by
    simp [Checkouts.given, Checkouts.withLocks, PathLocks.release, PathLocks.leave]
  have hconcluded (c : Checkouts) (place : PathLocks.Place) (r : SyncResult) :
      c.locks.slots.length ≤ (c.concluded place r).locks.slots.length := by
    simp [Checkouts.concluded, Checkouts.withLocks, PathLocks.release, PathLocks.finish]
  cases hreturns with
  | sync hreturns =>
    cases hreturns with
    | skip => exact ⟨h, Nat.le_refl _⟩
    | share => exact ⟨h.given_beside (hk _ rfl).1, hgiven _ _⟩
    | find => exact ⟨h.concluded_beside (hk _ rfl).1 _, hconcluded _ _ _⟩
    | unprepared => exact ⟨(h.onLog_beside hne _).concluded_beside (hk _ rfl).1 _, hconcluded _ _ _⟩
    | fail => exact ⟨(h.onLog_beside hne _).concluded_beside (hk _ rfl).1 _, hconcluded _ _ _⟩
    | told => exact ⟨h.concluded_beside (hk _ rfl).1 _, hconcluded _ _ _⟩
  | removal hreturns =>
    cases hreturns with
    | missing => exact ⟨h.given_beside (hk _ rfl).1, hgiven _ _⟩
    | @fail k path place news cause fs hfs =>
      have hpath : path = k.checkoutPath o.root := hpath
      rw [hpath, ← E.path k hused] at hfs
      have hfiles := h.withFiles_beside hused hne ((h.files.left.plot _ hused).works_removeTree hfs)
      exact ⟨hfiles.given_beside (hk _ rfl).1, hgiven { c with fs := fs } place⟩
    | told =>
      refine ⟨h.withLocks_beside (h.locks.change_beside (hk _ rfl).1 _), ?_⟩
      simp [Checkouts.withLocks, PathLocks.release]

/-- A call on another repository is given up beside the part. -/
theorem beside_drop (h : c.Part E hkey own c') (hk : k.Beside own c.locks) :
    (k.drop c).Part E hkey own c' ∧ c.locks.slots.length ≤ (k.drop c).locks.slots.length := by
  have hgiven (place : PathLocks.Place) (hslot : place.slot ∉ own) :
      (c.given place).Part E hkey own c' ∧ c.locks.slots.length ≤ (c.given place).locks.slots.length := by
    refine ⟨h.given_beside hslot, ?_⟩
    simp [Checkouts.given, Checkouts.withLocks, PathLocks.release, PathLocks.leave]
  cases k with
  | sync s =>
    obtain ⟨t, phase⟩ := s
    cases phase with
    | looking => exact ⟨h, Nat.le_refl _⟩
    | looked => exact ⟨h, Nat.le_refl _⟩
    | waiting place => exact hgiven place (hk _ rfl).1
    | checking place => exact hgiven place (hk _ rfl).1
    | checked place => exact hgiven place (hk _ rfl).1
    | preparing place => exact hgiven place (hk _ rfl).1
    | running place => exact hgiven place (hk _ rfl).1
    | invalidating place => exact hgiven place (hk _ rfl).1
  | removal r =>
    obtain ⟨key, path, phase⟩ := r
    cases phase with
    | waiting place => exact hgiven place (hk _ rfl).1
    | checking place => exact hgiven place (hk _ rfl).1
    | removing place => exact hgiven place (hk _ rfl).1
    | invalidating slot =>
      refine ⟨h.withLocks_beside (h.locks.change_beside (hk _ rfl).1 _), ?_⟩
      simp [drop, Removal.drop, Checkouts.withLocks, PathLocks.release]

end Beside

end CheckoutCall

end CodeNav
