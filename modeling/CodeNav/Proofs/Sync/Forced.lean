import CodeNav.Proofs.Sync.Outcomes

/-!
# Forced synchronizations

A forced synchronization that does its work clones or pulls: it does not return an outcome before git
has succeeded for it. One that has to wait shares an outcome, and then git has succeeded for the
synchronization that left it, which began no later. There is one way around that: a synchronization
that is not forced and finds the checkout leaves the outcome that nothing was done, and a forced one
that waits for it meanwhile takes this for its own.

## Main definitions

* `CheckoutEvent.GitSucceeds`: a git command that a synchronization needs has succeeded
* `CheckoutWorld.Worked`: it has done so since the synchronization began

## Main statements

* `CheckoutWorld.worked_of_records`: what is known of an outcome that is left in a slot
* `CheckoutWorld.updated_of_run`: what is known of the outcome of a forced synchronization
* `CheckoutWorld.exists_forced_skipped`: a forced synchronization may do nothing
-/

namespace CodeNav

/-- The git command that a synchronization runs to do something. -/
def SyncOptions.gitCommandFor? (o : SyncOptions) (t : SyncTask) : SyncAction → Option Command
  | .skipped => none
  | .cloned => some (o.cloneCommand t.address t.path t.token)
  | .updated => some (o.pullCommand t.path)

/-- The git command with which a synchronization does something has succeeded. -/
inductive CheckoutEvent.GitSucceeds (o : SyncOptions) (n : Nat) (t : SyncTask) (a : SyncAction) :
    CheckoutEvent → Prop
  | intro {place : PathLocks.Place} {run : SyncRun} {status : CommandStatus} {k : CheckoutCall}
      (hgit : run.isBuild = false) (hrun : o.gitCommandFor? t a = some run.command)
      (h : status.isSuccess = true) :
      GitSucceeds o n t a (.moved n (.sync ⟨t, .running place run⟩) (.ended (.ok status)) k)

/-- A command has ended for a call. -/
def CheckoutEvent.isEnd : CheckoutEvent → Bool
  | moved _ _ (.ended _) _ => true
  | _ => false

theorem CheckoutEvent.GitSucceeds.isEnd {o : SyncOptions} {n : Nat} {t : SyncTask} {a : SyncAction}
    {e : CheckoutEvent} (h : e.GitSucceeds o n t a) : e.isEnd = true := by
  cases h
  rfl

namespace CheckoutWorld

variable {o : SyncOptions} {fs : FileSystem} {w w' : CheckoutWorld} {events : List CheckoutEvent}
  {e : CheckoutEvent} {n : Nat} {t : SyncTask} {s : Synchronization} {a : SyncAction}
  {r : SyncOutcome} {news : SyncNews}

/-- Git has succeeded for a synchronization since it began. -/
def Worked (o : SyncOptions) (n : Nat) (t : SyncTask) (a : SyncAction)
    (events : List CheckoutEvent) : Prop :=
  ∃ early success late, events = early ++ success :: late ∧ (∃ k, .began n k ∈ early) ∧
    success.GitSucceeds o n t a

theorem Worked.concat (h : Worked o n t a events) (e : CheckoutEvent) :
    Worked o n t a (events ++ [e]) := by
  obtain ⟨early, success, late, rfl, hbegan, hsuccess⟩ := h
  exact ⟨early, success, late ++ [e], by simp, hbegan, hsuccess⟩

/-- What is known of a synchronization that is under way from how far it has come. -/
structure Traced (o : SyncOptions) (events : List CheckoutEvent) (n : Nat) (s : Synchronization) :
    Prop where
  began : ∃ k, .began n k ∈ events
  forced : s.task.force = true → s.phase ≠ .looking ∧ ∀ present, s.phase ≠ .looked present
  git : ∀ place run, s.phase = .running place run → run.isBuild = false →
    o.gitCommandFor? s.task run.action = some run.command
  built : ∀ place run, s.phase = .running place run → run.isBuild = true →
    Worked o n s.task run.action events
  told : ∀ place a built, s.phase = .invalidating place a built → Worked o n s.task a events

theorem Traced.concat (h : Traced o events n s) (e : CheckoutEvent) :
    Traced o (events ++ [e]) n s where
  began := h.began.imp fun _ hk ↦ List.mem_append_left _ hk
  forced := h.forced
  git := h.git
  built place run hphase hbuild := (h.built place run hphase hbuild).concat e
  told place a built hphase := (h.told place a built hphase).concat e

/-- A synchronization that is not at its commands has not done anything yet. -/
theorem Traced.of_idle (hbegan : ∃ k, .began n k ∈ events)
    (hforced : s.task.force = true → s.phase ≠ .looking ∧ ∀ present, s.phase ≠ .looked present)
    (hrun : ∀ place run, s.phase ≠ .running place run)
    (htold : ∀ place a built, s.phase ≠ .invalidating place a built) : Traced o events n s where
  began := hbegan
  forced := hforced
  git place run h := absurd h (hrun place run)
  built place run h := absurd h (hrun place run)
  told place a built h := absurd h (htold place a built)

/-- A synchronization has begun to run git. -/
theorem Traced.of_git {now : Nat} {place : PathLocks.Place} {command : Command}
    (hbegan : ∃ k, .began n k ∈ events) (h : o.gitCommandFor? t a = some command) :
    Traced o events n (Synchronization.run o t now place command a false) := by
  refine ⟨hbegan, by simp [Synchronization.run], ?_, by simp [Synchronization.run],
    by simp [Synchronization.run]⟩
  rintro place run ⟨⟩ -
  exact h

/-- A synchronization that goes on has done what it must have done by then. -/
theorem Traced.moves {now : Nat} {c c' : Checkouts} {s' : Synchronization}
    (h : Traced o events n s) (hmoves : s.Moves o now c news s' c') :
    Traced o (events ++ [.moved n (.sync s) news (.sync s')]) n s' := by
  have hbegan : ∃ k, .began n k ∈ events ++ [.moved n (.sync s) news (.sync s')] :=
    h.began.imp fun _ hk ↦ List.mem_append_left _ hk
  cases hmoves with
  | look => exact .of_idle hbegan (fun hforce ↦ absurd rfl (h.forced hforce).1) (by simp) (by simp)
  | arrive =>
    refine .of_idle hbegan ?_ ?_ ?_
    all_goals simp [Synchronization.arrive]
  | enter => exact .of_idle hbegan (by simp) (by simp) (by simp)
  | check => exact .of_idle hbegan (by simp) (by simp) (by simp)
  | prepare => exact .of_idle hbegan (by simp) (by simp) (by simp)
  | pull => exact .of_git hbegan rfl
  | clone => exact .of_git hbegan rfl
  | build hsuccess hgit =>
    refine ⟨hbegan, by simp [Synchronization.run], by simp [Synchronization.run], ?_,
      by simp [Synchronization.run]⟩
    rintro place run ⟨⟩ -
    exact ⟨events, _, [], rfl, h.began, .intro hgit (h.git _ _ rfl hgit) hsuccess⟩
  | @tell t place run status built hsuccess hbuilt =>
    refine ⟨hbegan, by simp, by simp, by simp, ?_⟩
    rintro place a built ⟨⟩
    cases hbuild : run.isBuild with
    | true => exact (h.built _ _ rfl hbuild).concat _
    | false => exact ⟨events, _, [], rfl, h.began, .intro hbuild (h.git _ _ rfl hbuild) hsuccess⟩

theorem traced_of_run (h : Run (Step o) (start fs) events w) (hn : w.Active n (.sync s)) :
    Traced o events n s := by
  induction h generalizing s with
  | nil => simp [Active, start] at hn
  | @snoc events e u v h hstep ih =>
    rcases hstep.active hn with hn | ⟨rfl, hbegins⟩ | ⟨k, news, rfl, hk, hmoves⟩
    · exact (ih hn).concat e
    · have hbegan : ∃ k, .began n k ∈ events ++ [.began n (.sync s)] := ⟨.sync s, by simp⟩
      rcases hbegins.sync with ⟨hforce, hlooking⟩ | ⟨-, harrive, -⟩
      · exact .of_idle hbegan (by simp [hforce]) (by simp [hlooking]) (by simp [hlooking])
      · rw [harrive] at hbegan ⊢
        refine .of_idle hbegan ?_ ?_ ?_
        all_goals simp [Synchronization.arrive]
    · cases hmoves with
      | sync hmoves => exact (ih hk).moves hmoves

/-- An outcome that is left in a slot is that of work of git, or says that nothing was done where
nothing was forced. -/
theorem worked_of_records (h : Run (Step o) (start fs) events w) (hstep : Step o w e w')
    (hrecords : e.Records n t (.ok r)) :
    Worked o n t r.action events ∨ (t.force = false ∧ r.action = .skipped) := by
  cases hrecords with
  | intro hwork =>
    cases hstep with
    | finish _ hn _ hturn =>
      have htraced := traced_of_run h hn
      cases CheckoutCall.returns_of_turn hturn with
      | sync hreturns =>
        cases hreturns with
        | find hforce => exact Or.inr ⟨hforce, rfl⟩
        | told => exact Or.inl (htraced.told _ _ _ rfl)
        | skip => simp [SyncPhase.lockCall?] at hwork
        | share => simp [SyncPhase.lockCall?] at hwork

/-- When a forced synchronization returns an outcome, git has succeeded for it since it began. Or it
has waited while the outcome was left by another synchronization of the same folder, and then git has
succeeded for that one since it began, unless it was not forced and has done nothing. -/
theorem updated_of_run (h : Run (Step o) (start fs) events w)
    (hstep : Step o w (.returned n (.sync s) news (.synchronized (.ok r))) w')
    (hforce : s.task.force = true) :
    Worked o n s.task r.action events ∨
      ∃ early arrival between m t record late,
        events = early ++ arrival :: (between ++ record :: late) ∧ arrival.Arrives n ∧
          record.Records m t (.ok r) ∧ t.path.same s.task.path = true ∧
          (Worked o m t r.action (early ++ arrival :: between) ∨
            (t.force = false ∧ r.action = .skipped)) := by
  cases hstep with
  | finish _ hn _ hturn =>
    have htraced := traced_of_run h hn
    cases CheckoutCall.returns_of_turn hturn with
    | sync hreturns =>
      cases hreturns with
      | skip => exact absurd rfl ((htraced.forced hforce).2 _)
      | find hnot => exact absurd (hforce.symm.trans hnot) (by simp)
      | told => exact Or.inl (htraced.told _ _ _ rfl)
      | share hover =>
        obtain ⟨slot, hslot, -, hlast, hgen⟩ := PathLocks.admission_eq_overtaken hover
        obtain ⟨early, arrival, between, m, t, record, late, rfl, harrives, hrecords, hpath, -⟩ :=
          inherits_of_run (P := fun _ _ _ ↦ True) (fun _ _ _ h ↦ h) (fun _ _ _ _ _ _ _ _ _ _ ↦ trivial)
            (fun _ _ _ _ _ _ _ _ _ _ _ _ _ ↦ trivial) h ⟨hn, slot, hslot, hlast, hgen⟩
        refine Or.inr ⟨early, arrival, between, m, t, record, late, rfl, harrives, hrecords, hpath, ?_⟩
        rw [← List.cons_append, ← List.append_assoc] at h
        obtain ⟨u, v, hu, hrecord, -⟩ := h.split
        exact worked_of_records hu hrecord hrecords

/-- A forced synchronization pulls, and git has succeeded for it. -/
theorem updated_alone : ∃ events w w' s news r,
    Run (Step .plain) (start .withCheckout) events w ∧
      Step .plain w (.returned 0 (.sync s) news (.synchronized (.ok r))) w' ∧
      s.task.force = true ∧
      (Worked .plain 0 s.task r.action events ∨
        ∃ early arrival between m t record late,
          events = early ++ arrival :: (between ++ record :: late) ∧ arrival.Arrives 0 ∧
            record.Records m t (.ok r) ∧ t.path.same s.task.path = true ∧
            (Worked .plain m t r.action (early ++ arrival :: between) ∨
              (t.force = false ∧ r.action = .skipped))) := by
  obtain ⟨events, u, s, news, r, v, hrun, hstep, hforce⟩ := return_of_play .plain
    (start .withCheckout) (fun _ _ _ ↦ True)
    [.call (.synchronize "https://github.com/o/r" true none), .go 0 .nothing, .go 0 .nothing,
      .go 0 .nothing, .go 0 (.ended (.ok ⟨some 0⟩))]
    (.go 0 .invalidated) 0 (fun _ _ s _ ↦ s.task.force) (by decide +kernel)
  have hrun := hrun.mono fun _ _ _ h ↦ h.1
  exact ⟨events, u, v, s, news, r, hrun, hstep, hforce, updated_of_run hrun hstep hforce⟩

/-- A forced synchronization that waits behind one that is not forced returns that nothing was done.
Git has not succeeded for anybody. -/
theorem exists_forced_skipped : ∃ events w w' s news r,
    Run (Step .plain) (start .withCheckout) events w ∧
      Step .plain w (.returned 2 (.sync s) news (.synchronized (.ok r))) w' ∧
      s.task.force = true ∧ r.action = .skipped ∧
      ∀ e ∈ events, ∀ n t a, ¬ e.GitSucceeds .plain n t a := by
  obtain ⟨events, u, s, news, r, v, hrun, hstep, hcheck⟩ := return_of_play .plain
    (start .withCheckout) (fun _ _ _ ↦ True)
    [.call (.synchronize "https://github.com/o/r" true none), .go 0 .nothing, .go 0 .nothing,
      .go 0 .nothing,
      .call (.synchronize "https://github.com/o/r" false none), .go 1 .nothing, .go 1 .nothing,
      .call (.synchronize "https://github.com/o/r" true none),
      .drop 0, .go 1 .nothing, .go 1 .nothing, .go 1 .nothing]
    (.go 2 .nothing) 2
    (fun events _ s r ↦ s.task.force && (r.action = .skipped && events.all (!·.isEnd)))
    (by decide +kernel)
  simp only [Bool.and_eq_true, decide_eq_true_eq, List.all_eq_true, Bool.not_eq_true'] at hcheck
  obtain ⟨hforce, hskipped, hnone⟩ := hcheck
  refine ⟨events, u, v, s, news, r, hrun.mono fun _ _ _ h ↦ h.1, hstep, hforce, hskipped, ?_⟩
  intro e he n t a hgit
  exact absurd (hnone e he) (by simp [hgit.isEnd])

end CheckoutWorld

end CodeNav
