import CodeNav.Proofs.Sync.Outcomes

/-!
# Checkouts that nobody else touches

Calls are made on one repository, and nobody but they and their commands touches its checkout: it
appears and disappears only while a command is being run, or when a removal takes its turn, and it is
there when the last command of a synchronization has succeeded. A synchronization that has had the
slot for itself then returns an outcome only while the checkout is there. One that shares an outcome
may be told of a checkout that is gone: a removal that waited before it has removed the checkout
after the outcome was kept, and the outcome stays.

## Main definitions

* `CheckoutWorld.Undisturbed`: nobody else touches the checkout
* `CheckoutEvent.Removes`: a removal removes a checkout

## Main statements

* `CheckoutWorld.present_of_step`: when a checkout appears or disappears
* `CheckoutWorld.present_of_run`: what is known of the checkout when an outcome is returned
* `CheckoutWorld.exists_missing`: an outcome may be shared after the checkout was removed
-/

namespace CodeNav

/-- The work of a synchronization changes files in this phase. -/
def SyncPhase.touches : SyncPhase → Bool
  | preparing _ => true
  | running _ _ => true
  | _ => false

/-- A synchronization in this phase has seen that the checkout is there, or has made it. -/
def SyncPhase.assures : SyncPhase → Bool
  | checked _ present => present
  | invalidating _ _ _ => true
  | _ => false

namespace SyncPhase

variable {phase : SyncPhase}

theorem working_of_touches (h : phase.touches = true) :
    ∃ place, phase.lockCall? = some (.working place) := by
  cases phase with
  | preparing place => exact ⟨place, rfl⟩
  | running place => exact ⟨place, rfl⟩
  | _ => simp [touches] at h

theorem working_of_assures (h : phase.assures = true) :
    ∃ place, phase.lockCall? = some (.working place) := by
  cases phase with
  | checked place => exact ⟨place, rfl⟩
  | invalidating place => exact ⟨place, rfl⟩
  | _ => simp [assures] at h

theorem not_assures_of_touches (h : phase.touches = true) : phase.assures = false := by
  cases phase with
  | preparing => rfl
  | running => rfl
  | _ => simp [touches] at h

end SyncPhase

/-- A command is being run for a call. -/
def CheckoutCall.isRunning : CheckoutCall → Bool
  | sync ⟨_, .running _ _⟩ => true
  | _ => false

/-- Whether the last step of a path does not lead down. -/
def FileSystem.endsInDots (p : Path) : Bool :=
  lastStep? p = some .stay || lastStep? p = some .up

/-- A removal removes a checkout. Where the path ends in `.` or `..`, it may fail after it has removed
what is in the folder. -/
inductive CheckoutEvent.Removes : CheckoutEvent → Prop
  | removed {n : Nat} {key : RepositoryKey} {path : Path} {place : PathLocks.Place} {news : SyncNews}
      {k : CheckoutCall} : Removes (.moved n (.removal ⟨key, path, .removing place⟩) news k)
  | emptied {n : Nat} {key : RepositoryKey} {path : Path} {place : PathLocks.Place} {news : SyncNews}
      {report : CheckoutReport} (h : FileSystem.endsInDots path = true) :
      Removes (.returned n (.removal ⟨key, path, .removing place⟩) news report)

/-- A removal that fails leaves everything as it is, unless the path ends in `.` or `..`. -/
theorem FileSystem.removeTree_eq_error {fs fs' : FileSystem} {p : Path} {cause : Cause}
    (h : fs.removeTree p = (.error cause, fs')) : fs' = fs ∨ endsInDots p = true := by
  simp only [removeTree] at h
  split at h
  · exact Or.inl (Prod.mk.inj h).2.symm
  · exact Or.inl (Prod.mk.inj h).2.symm
  · simp at h
  · exact Or.inl (Prod.mk.inj h).2.symm
  · split at h
    · rename_i hstay
      exact Or.inr (by simp [endsInDots, hstay])
    · rename_i hup
      exact Or.inr (by simp [endsInDots, hup])
    · simp at h

namespace CheckoutWorld

open LockWorld

variable {o : SyncOptions} {key : RepositoryKey} {fs : FileSystem} {w w' : CheckoutWorld}
  {events : List CheckoutEvent} {e : CheckoutEvent} {m n : Nat} {k : CheckoutCall} {t : SyncTask}
  {s : Synchronization} {phase : SyncPhase} {place : PathLocks.Place} {x : SyncResult}
  {r : SyncOutcome} {news : SyncNews}

/-- Whether the checkout of a repository is there. -/
def hasCheckout (w : CheckoutWorld) (o : SyncOptions) (key : RepositoryKey) : Bool :=
  w.checkouts.fs.present (key.checkoutPath o.root)

/-- All calls are made on one repository. Its checkout appears and disappears by itself only while a
command is being run, and is there when the last command of a synchronization has succeeded. A
removal is not given up while it removes the checkout, which would go on behind its back. -/
def Undisturbed (o : SyncOptions) (key : RepositoryKey) (w : CheckoutWorld) (e : CheckoutEvent)
    (w' : CheckoutWorld) : Prop :=
  match e with
  | .began _ k => k.key = key
  | .changed =>
    (∀ k ∈ w.calls, k.any CheckoutCall.isRunning = false) → w'.hasCheckout o key = w.hasCheckout o key
  | .moved _ (.sync ⟨_, .running _ _⟩) _ (.sync ⟨_, .invalidating _ _ _⟩) =>
    w.hasCheckout o key = true
  | .dropped _ (.removal ⟨_, _, .removing _⟩) => False
  | _ => True

instance (o : SyncOptions) (key : RepositoryKey) (w : CheckoutWorld) (e : CheckoutEvent)
    (w' : CheckoutWorld) : Decidable (Undisturbed o key w e w') := by
  unfold Undisturbed
  split <;> infer_instance

/-- How calls on one repository take turns when nobody else touches its checkout. -/
def StepAlone (o : SyncOptions) (key : RepositoryKey) (w : CheckoutWorld) (e : CheckoutEvent)
    (w' : CheckoutWorld) : Prop :=
  Step o w e w' ∧ Undisturbed o key w e w'

theorem run_of_runAlone (h : Run (StepAlone o key) (start fs) events w) :
    Run (Step o) (start fs) events w :=
  h.mono fun _ _ _ hstep ↦ hstep.1

theorem seated_of_runAlone (h : Run (StepAlone o key) (start fs) events w) :
    Seated w.checkouts.locks w.seats :=
  seated_of_run (run_of_runAlone h)

/-- All calls work on the one folder. -/
theorem path_of_runAlone (h : Run (StepAlone o key) (start fs) events w) (hn : w.Active n k) :
    k.path = key.checkoutPath o.root := by
  have hkey : k.key = key :=
    active_of_run (P := fun k ↦ k.key = key) (fun _ _ _ hstep ↦ hstep.1)
      (fun _ _ _ _ hstep _ ↦ hstep.2) (fun _ _ _ _ _ _ hkey hmoves ↦ hmoves.same.1.trans hkey) h hn
  rw [path_of_run (run_of_runAlone h) hn, hkey]

/-- Only one call is at its work. -/
theorem one_works (h : Run (StepAlone o key) (start fs) events w) {k' : CheckoutCall}
    {a b : LockSeat} {place' : PathLocks.Place} (hm : w.Active m k) (hn : w.Active n k')
    (ha : k.seat? = some a) (hb : k'.seat? = some b) (hpa : a.phase = some (.working place))
    (hpb : b.phase = some (.working place')) : m = n := by
  have hpath : a.path.same b.path = true := by
    rw [CheckoutCall.seat?_path ha, CheckoutCall.seat?_path hb, path_of_runAlone h hm,
      path_of_runAlone h hn]
    exact Path.same_refl _
  exact (seated_of_runAlone h).one_works (hm.seats_eq.trans ha) (hn.seats_eq.trans hb) hpa hpb hpath

/-- The checkout appears or disappears only by the work of a synchronization or by that of a
removal. -/
theorem present_of_step (h : StepAlone o key w e w') :
    w'.hasCheckout o key = w.hasCheckout o key ∨
      (∃ m t phase, w.Active m (.sync ⟨t, phase⟩) ∧ phase.touches = true) ∨
      (e.Removes ∧ ∃ m key path place, w.Active m (.removal ⟨key, path, .removing place⟩)) := by
  obtain ⟨hstep, hquiet⟩ := h
  -- Nothing happens as long as the files stay as they are.
  have same : w'.checkouts.fs = w.checkouts.fs → w'.hasCheckout o key = w.hasCheckout o key :=
    fun h ↦ by rw [hasCheckout, h, hasCheckout]
  cases hstep with
  | begin order hbegin => exact Or.inl (same (CheckoutCall.begins_of_begin hbegin).fs_eq)
  | refuse order hbegin =>
    exact Or.inl (same (congrArg Checkouts.fs (CheckoutCall.checkouts_eq_of_refused hbegin)))
  | turn news hn hnews hturn =>
    cases CheckoutCall.moves_of_turn hturn with
    | sync h =>
      cases h with
      | clone => exact Or.inr (Or.inl ⟨_, _, _, hn, rfl⟩)
      | _ => exact Or.inl (same rfl)
    | removal h =>
      cases h with
      | remove => exact Or.inr (Or.inr ⟨.removed, _, _, _, _, hn⟩)
      | _ => exact Or.inl (same rfl)
  | finish news hn hnews hturn =>
    cases CheckoutCall.returns_of_turn hturn with
    | sync h => cases h <;> exact Or.inl (same rfl)
    | removal h =>
      cases h with
      | fail herror =>
        rcases FileSystem.removeTree_eq_error herror with hfs | hstay
        · exact Or.inl (same hfs)
        · exact Or.inr (Or.inr ⟨.emptied hstay, _, _, _, _, hn⟩)
      | _ => exact Or.inl (same rfl)
  | @drop n k hn => exact Or.inl (same (k.drop_fs w.checkouts))
  | print text hn hk => exact Or.inl (same rfl)
  | change fs =>
    by_cases hrunning : ∀ k ∈ w.calls, k.any CheckoutCall.isRunning = false
    · exact Or.inl (hquiet hrunning)
    · obtain ⟨k, hk, hrun⟩ : ∃ k ∈ w.calls, k.any CheckoutCall.isRunning = true := by
        simpa using hrunning
      obtain ⟨m, hm⟩ := List.mem_iff_getElem?.mp hk
      match k, hm, hrun with
      | some (.sync ⟨t, .running place run⟩), hm, _ => exact Or.inr (Or.inl ⟨m, t, _, hm, rfl⟩)
  | pass time => exact Or.inl (same rfl)

/-- A synchronization comes to see or make the checkout by looking for it, or when its last command has
succeeded. -/
theorem moves_of_assures {now : Nat} {c c' : Checkouts} {s s' : Synchronization}
    (h : s.Moves o now c news s' c') (hphase : s'.phase.assures = true) :
    c'.fs = c.fs ∧ (c.fs.present s.task.path = true ∨
      ∃ t place run place' action built, s = ⟨t, .running place run⟩ ∧
        s' = ⟨t, .invalidating place' action built⟩) := by
  cases h with
  | check => exact ⟨rfl, Or.inl hphase⟩
  | tell => exact ⟨rfl, Or.inr ⟨_, _, _, _, _, _, rfl, rfl⟩⟩
  | _ => simp [SyncPhase.assures, Synchronization.arrive, Synchronization.run] at hphase

/-- While a synchronization has seen or made the checkout, it is there. -/
theorem present_of_assures (h : Run (StepAlone o key) (start fs) events w)
    (hn : w.Active n (.sync ⟨t, phase⟩)) (hphase : phase.assures = true) :
    w.hasCheckout o key = true := by
  induction h generalizing n t phase with
  | nil => simp [Active, start] at hn
  | @snoc events e u v h hstep ih =>
    rcases hstep.1.active hn with hn | ⟨-, hbegins⟩ | ⟨k, news, rfl, hk, hmoves⟩
    · -- The call has been at its work, so nobody else is.
      obtain ⟨place, hwork⟩ := SyncPhase.working_of_assures hphase
      rcases present_of_step hstep with hsame | ⟨m, t', phase', hm, htouches⟩ | ⟨-, m, _, _, _, hm⟩
      · exact hsame.trans (ih hn hphase)
      · obtain ⟨place', hwork'⟩ := SyncPhase.working_of_touches htouches
        obtain rfl := one_works h hm hn (CheckoutCall.seat?_sync hwork')
          (CheckoutCall.seat?_sync hwork) rfl rfl
        obtain ⟨rfl, rfl⟩ : t' = t ∧ phase' = phase := by simpa [Active] using hm.symm.trans hn
        exact absurd hphase (by simp [SyncPhase.not_assures_of_touches htouches])
      · obtain rfl := one_works h hm hn rfl (CheckoutCall.seat?_sync hwork) rfl rfl
        exact absurd (hm.symm.trans hn) (by simp)
    · rcases hbegins.sync with ⟨-, hlooking⟩ | ⟨-, harrive, -⟩
      · obtain rfl : phase = .looking := hlooking
        simp [SyncPhase.assures] at hphase
      · have harrived : phase = (Synchronization.arrive t u.checkouts).1.phase :=
          congrArg Synchronization.phase harrive
        simp [harrived, SyncPhase.assures, Synchronization.arrive] at hphase
    · have hpath := path_of_runAlone h hk
      cases hmoves with
      | sync hmoves =>
        obtain ⟨hfs, hseen⟩ := moves_of_assures hmoves hphase
        rw [hasCheckout, hfs]
        rcases hseen with hpresent | ⟨t', place, run, place', action, built, rfl, hs⟩
        · exact hpath ▸ hpresent
        · obtain ⟨rfl, rfl⟩ := Synchronization.mk.inj hs
          exact hstep.2

/-- When an outcome is kept, the checkout is there. -/
theorem present_of_records (h : Run (StepAlone o key) (start fs) events w)
    (hstep : StepAlone o key w e w') (hrecords : e.Records n t (.ok r)) :
    w'.hasCheckout o key = true := by
  cases hrecords with
  | intro hwork =>
    cases hstep.1 with
    | finish _ hn _ hturn =>
      cases CheckoutCall.returns_of_turn hturn with
      | sync hreturns =>
        cases hreturns with
        | find =>
          have hpresent : w.hasCheckout o key = true := present_of_assures h hn rfl
          exact hpresent
        | told =>
          have hpresent : w.hasCheckout o key = true := present_of_assures h hn rfl
          exact hpresent
        | skip => simp [SyncPhase.lockCall?] at hwork
        | share => simp [SyncPhase.lockCall?] at hwork

/-- As long as somebody is about to share an outcome, the checkout stays, or a removal removes it. -/
theorem stays_or_removes (h : Run (StepAlone o key) (start fs) events w)
    (hstep : StepAlone o key w e w') (hover : w.Overtaken n t place x) :
    w'.hasCheckout o key = w.hasCheckout o key ∨ e.Removes := by
  rcases present_of_step hstep with hsame | ⟨m, t', phase, hm, htouches⟩ | ⟨hremoves, -⟩
  · exact Or.inl hsame
  · obtain ⟨place', hwork⟩ := SyncPhase.working_of_touches htouches
    have hpath : t'.path = t.path :=
      (path_of_runAlone h hm).trans (path_of_runAlone h hover.waits).symm
    exact (hover.not_working (seated_of_runAlone h) hm hwork (hpath ▸ Path.same_refl _)).elim
  · exact Or.inr hremoves

/-- When a synchronization that has the slot for itself returns an outcome, or one that has waited
shares an outcome, the checkout is there; or a removal has removed it after the outcome was kept,
while the call that shares the outcome was waiting. -/
theorem present_of_run (h : Run (StepAlone o key) (start fs) events w)
    (hstep : StepAlone o key w (.returned n (.sync s) news (.synchronized (.ok r))) w')
    (hplace : s.place? = some place) :
    w.hasCheckout o key = true ∨ (s.phase = .waiting place ∧
      Inherits (fun late ↦ ∃ e ∈ late, e.Removes) n (key.checkoutPath o.root) (.ok r) events) := by
  cases hstep.1 with
  | finish _ hn _ hturn =>
    cases CheckoutCall.returns_of_turn hturn with
    | sync hreturns =>
      cases hreturns with
      | skip => simp [Synchronization.place?] at hplace
      | find => exact Or.inl (present_of_assures h hn rfl)
      | told => exact Or.inl (present_of_assures h hn rfl)
      | share hover =>
        obtain rfl := Option.some.inj hplace
        obtain ⟨slot, hslot, -, hlast, hgen⟩ := PathLocks.admission_eq_overtaken hover
        let P (late : List CheckoutEvent) (x : SyncResult) (u : CheckoutWorld) : Prop :=
          ∀ r, x = .ok r → u.hasCheckout o key = true ∨ ∃ e ∈ late, e.Removes
        have hinherits := inherits_of_run (P := P) (fun _ _ _ h ↦ h.1) ?kept ?stays h
          ⟨hn, slot, hslot, hlast, hgen⟩
        case kept =>
          rintro early u e v m t x hu hv hrecords r rfl
          exact Or.inl (present_of_records hu hv hrecords)
        case stays =>
          intro early u e v m t place x late hu hv hover hP r hx
          rcases hP r hx with hpresent | ⟨e', he', hremoves⟩
          · rcases stays_or_removes hu hv hover with hsame | hremoves
            · exact Or.inl (hsame.trans hpresent)
            · exact Or.inr ⟨e, by simp, hremoves⟩
          · exact Or.inr ⟨e', List.mem_append_left _ he', hremoves⟩
        by_cases hpresent : w.hasCheckout o key = true
        · exact Or.inl hpresent
        · refine Or.inr ⟨rfl, path_of_runAlone h hn ▸ hinherits.imp fun late hP ↦ ?_⟩
          exact (hP r rfl).resolve_left hpresent

/-- A synchronization pulls, and the checkout is there. -/
theorem present_pulled : ∃ key events w w' s place news r,
    Run (StepAlone .plain key) (start .withCheckout) events w ∧
      StepAlone .plain key w (.returned 0 (.sync s) news (.synchronized (.ok r))) w' ∧
      s.place? = some place ∧
      (w.hasCheckout .plain key = true ∨ (s.phase = .waiting place ∧
        Inherits (fun late ↦ ∃ e ∈ late, e.Removes) 0 (key.checkoutPath SyncOptions.plain.root)
          (.ok r) events)) := by
  obtain ⟨events, u, s, news, r, v, hrun, hstep, hplace⟩ := return_of_play .plain
    (start .withCheckout) (Undisturbed .plain ⟨"github.com", "o/r"⟩)
    [.call (.synchronize "https://github.com/o/r" true none), .go 0 .nothing, .go 0 .nothing,
      .go 0 .nothing, .go 0 (.ended (.ok ⟨some 0⟩))]
    (.go 0 .invalidated) 0 (fun _ _ s _ ↦ s.place?.isSome) (by decide +kernel)
  obtain ⟨place, hplace⟩ := Option.isSome_iff_exists.mp hplace
  exact ⟨_, events, u, v, s, place, news, r, hrun, ⟨hstep, trivial⟩, hplace,
    present_of_run hrun ⟨hstep, trivial⟩ hplace⟩

/-- A synchronization that waits for a removal, which in turn waits for a first synchronization,
shares the outcome of the first one after the checkout was removed. -/
theorem exists_missing : ∃ key events w w' s place news r,
    Run (StepAlone .plain key) (start .empty) events w ∧
      StepAlone .plain key w (.returned 2 (.sync s) news (.synchronized (.ok r))) w' ∧
      s.place? = some place ∧ r.action = .cloned ∧ w.hasCheckout .plain key = false := by
  obtain ⟨events, u, s, news, r, v, hrun, hstep, hcheck⟩ := return_of_play .plain (start .empty)
    (Undisturbed .plain ⟨"github.com", "o/r"⟩)
    [.call (.synchronize "https://github.com/o/r" false none), .go 0 .nothing, .go 0 .nothing,
      .go 0 .nothing, .go 0 .nothing, .go 0 .nothing, .go 0 .nothing,
      .call (.remove "https://github.com/o/r"),
      .call (.synchronize "https://github.com/o/r" false none), .go 2 .nothing, .go 2 .nothing,
      .change .withCheckout, .go 0 (.ended (.ok ⟨some 0⟩)), .go 0 .invalidated,
      .go 1 .nothing, .go 1 .nothing, .go 1 .nothing]
    (.go 2 .nothing) 2
    (fun _ w s r ↦ s.place?.isSome &&
      (r.action = .cloned && !w.hasCheckout .plain ⟨"github.com", "o/r"⟩))
    (by decide +kernel)
  simp only [Bool.and_eq_true, decide_eq_true_eq, Bool.not_eq_true'] at hcheck
  obtain ⟨hplace, hcloned, habsent⟩ := hcheck
  obtain ⟨place, hplace⟩ := Option.isSome_iff_exists.mp hplace
  exact ⟨_, events, u, v, s, place, news, r, hrun, ⟨hstep, trivial⟩, hplace, hcloned, habsent⟩

end CheckoutWorld

end CodeNav
