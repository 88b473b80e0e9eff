import CodeNav.Proofs.Sync.Alone
import CodeNav.Proofs.Sync.Progress

/-!
# Many synchronizations, one clone

Any number of synchronizations of one repository that are not forced, none of which is given up,
share one clone: a run of them goes through three stages. As long as the checkout is *missing*, nobody
has taken it upon itself to clone. While one call is *cloning*, no other is at its work, no outcome is
kept that others could share, and as the slot is held nobody takes what is there of the checkout for a
complete one. Once the checkout is *cloned*, everybody finds it or shares the outcome.

## Main definitions

* `CheckoutEvent.command?`, `CheckoutEvent.tells?`: what is asked of others
* `CheckoutWorld.StepPlain`: how synchronizations take turns that are not forced
* `CheckoutWorld.FirstSucceeds`: the first clone does not fail
* `CheckoutWorld.Missing`, `CheckoutWorld.Cloning`, `CheckoutWorld.Cloned`: the stages
* `CheckoutWorld.ClonedOnce`: what calls may rely on

## Main statements

* `CheckoutWorld.Missing.step`, `CheckoutWorld.Cloning.step`, `CheckoutWorld.Cloned.step`: every step
  stays in its stage or leads to the next one
* `CheckoutWorld.clonedOnce_of_run`: a missing checkout is cloned once
-/

namespace CodeNav

namespace CheckoutEvent

/-- What a call begins to ask of others. -/
def asks : CheckoutEvent → SyncWant
  | moved _ _ _ k => k.wants
  | _ => .nothing

/-- The command that begins to be run. -/
def command? (e : CheckoutEvent) : Option Command :=
  match e.asks with
  | .command command _ => some command
  | _ => none

/-- The repository whose checkout others begin to be told of. -/
def tells? (e : CheckoutEvent) : Option RepositoryKey :=
  match e.asks with
  | .invalidation key => some key
  | _ => none

/-- The call that takes it upon itself to clone. -/
def attempt? : CheckoutEvent → Option Nat
  | moved n _ _ (.sync ⟨_, .preparing _⟩) => some n
  | _ => none

/-- What a call returns. -/
def report? : CheckoutEvent → Option CheckoutReport
  | returned _ _ _ report => some report
  | _ => none

/-- The call that fails. -/
def failure? : CheckoutEvent → Option Nat
  | returned n _ _ (.synchronized (.error _)) => some n
  | _ => none

/-- Nothing is asked for or returned, and nobody takes it upon itself to clone. -/
structure IsSilent (e : CheckoutEvent) : Prop where
  command : e.command? = none
  tells : e.tells? = none
  attempt : e.attempt? = none
  report : e.report? = none

/-- The call that an event is about, and how far it has come. -/
def enters? : CheckoutEvent → Option (Nat × CheckoutCall)
  | began n k => some (n, k)
  | moved n _ _ k => some (n, k)
  | _ => none

/-- Calls that begin are synchronizations that are not forced, and no call is given up. -/
def IsPlain : CheckoutEvent → Prop
  | began _ (.sync s) => s.task.force = false
  | began _ (.removal _) => False
  | dropped _ _ => False
  | _ => True

instance (e : CheckoutEvent) : Decidable e.IsPlain := by
  unfold IsPlain
  split <;> infer_instance

end CheckoutEvent

/-- A synchronization that is not forced may have come so far while the checkout is there, or is not
there, and nobody clones it. -/
def SyncPhase.agrees (present : Bool) : SyncPhase → Bool
  | looking => true
  | looked b => present || !b
  | waiting _ => true
  | checking _ => true
  | checked _ b => b == present
  | _ => false

/-- A synchronization is not at its work. -/
def SyncPhase.isOutside : SyncPhase → Bool
  | looking => true
  | looked _ => true
  | waiting _ => true
  | _ => false

namespace SyncPhase

variable {phase : SyncPhase}

theorem not_touches_of_agrees {present : Bool} (h : phase.agrees present = true) :
    phase.touches = false := by
  cases phase <;> simp_all [agrees, touches]

theorem agrees_of_isOutside (h : phase.isOutside = true) : phase.agrees true = true := by
  cases phase <;> simp_all [agrees, isOutside]

theorem isOutside_or_working (phase : SyncPhase) :
    phase.isOutside = true ∨ ∃ place, phase.lockCall? = some (.working place) := by
  cases phase <;> simp [isOutside, lockCall?]

end SyncPhase

namespace CheckoutWorld

open LockWorld

variable {o : SyncOptions} {key : RepositoryKey} {fs : FileSystem} {u v w : CheckoutWorld}
  {events : List CheckoutEvent} {e : CheckoutEvent} {m n : Nat} {k : CheckoutCall} {t : SyncTask}
  {s : Synchronization} {phase phase' : SyncPhase} {place : PathLocks.Place} {x : SyncResult}
  {news : SyncNews}

/-- How synchronizations that are not forced take turns, when nobody else touches the checkout and no
call is given up. -/
def StepPlain (o : SyncOptions) (key : RepositoryKey) (w : CheckoutWorld) (e : CheckoutEvent)
    (w' : CheckoutWorld) : Prop :=
  Step o w e w' ∧ Undisturbed o key w e w' ∧ e.IsPlain

/-- The first call that takes it upon itself to clone does not fail. -/
def FirstSucceeds (events : List CheckoutEvent) : Prop :=
  ∀ n, (events.filterMap CheckoutEvent.attempt?).head? = some n →
    ∀ e ∈ events, e.failure? ≠ some n

theorem FirstSucceeds.of_append {more : List CheckoutEvent} (h : FirstSucceeds (events ++ more)) :
    FirstSucceeds events := by
  intro n hn e he
  refine h n ?_ e (List.mem_append_left _ he)
  rw [List.filterMap_append, List.head?_append, hn, Option.some_or]

theorem runAlone_of_runPlain (h : Run (StepPlain o key) (start fs) events w) :
    Run (StepAlone o key) (start fs) events w :=
  h.mono fun _ _ _ hstep ↦ ⟨hstep.1, hstep.2.1⟩

theorem isPlain_of_run (h : Run (StepPlain o key) (start fs) events w) (he : e ∈ events) :
    e.IsPlain := by
  obtain ⟨before, after, rfl⟩ := List.append_of_mem he
  obtain ⟨u, v, -, hstep, -⟩ := h.split
  exact hstep.2.2

/-- A synchronization of the repository that is not forced. -/
def IsPlainCall (o : SyncOptions) (key : RepositoryKey) (k : CheckoutCall) : Prop :=
  ∃ t phase, k = .sync ⟨t, phase⟩ ∧ t.force = false ∧ t.address.key = key ∧
    t.path = key.checkoutPath o.root

theorem IsPlainCall.task (h : IsPlainCall o key (.sync ⟨t, phase⟩)) :
    t.force = false ∧ t.address.key = key ∧ t.path = key.checkoutPath o.root := by
  obtain ⟨t', phase', heq, htask⟩ := h
  obtain ⟨rfl, -⟩ : t = t' ∧ phase = phase' := by simpa using heq
  exact htask

/-- All calls are synchronizations of the repository that are not forced. -/
theorem plain_of_run (h : Run (StepPlain o key) (start fs) events w) (hn : w.Active n k) :
    IsPlainCall o key k := by
  refine active_of_run (P := IsPlainCall o key) (fun _ _ _ hstep ↦ hstep.1) ?_ ?_ h hn
  · rintro u n k v ⟨-, hkey, hplain⟩ hbegins
    cases k with
    | sync s => exact ⟨s.task, s.phase, rfl, hplain, hkey, hkey ▸ hbegins.path_eq⟩
    | removal => exact hplain.elim
  · rintro now c k news k' c' ⟨t, phase, rfl, hforce, hkey, hpath⟩ hmoves
    cases hmoves with
    | @sync _ s' _ _ hmoves =>
      obtain rfl : s'.task = t := hmoves.task_eq
      exact ⟨s'.task, s'.phase, rfl, hforce, hkey, hpath⟩

/-! ### What a step leaves as it is -/

/-- What holds of all synchronizations holds after a step, if it holds of the one that has begun or
gone on. -/
theorem forall_active_of_step {P : SyncPhase → Prop} (hstep : Step o u e v)
    (hold : ∀ n t phase, u.Active n (.sync ⟨t, phase⟩) → P phase)
    (hnew : ∀ n t phase, e.enters? = some (n, .sync ⟨t, phase⟩) → P phase) :
    ∀ n t phase, v.Active n (.sync ⟨t, phase⟩) → P phase := by
  intro n t phase hn
  rcases hstep.active hn with hn | ⟨rfl, -⟩ | ⟨k, news, rfl, -, -⟩
  · exact hold n t phase hn
  · exact hnew n t phase rfl
  · exact hnew n t phase rfl

/-- Outcomes stay as they are when no call returns. -/
theorem sameOutcomes_of_report?_eq_none (hstep : Step o u e v) (h : e.report? = none) :
    u.checkouts.locks.SameOutcomes v.checkouts.locks := by
  rcases hstep.sameOutcomes_or_records with houtcomes | ⟨_, _, _, _, _, hrecords, -⟩
  · exact houtcomes
  · cases hrecords
    simp [CheckoutEvent.report?] at h

/-- The checkout stays as it is when nobody is at a clone. -/
theorem present_of_agrees {b : Bool} (hrun : Run (StepPlain o key) (start fs) events u)
    (hstep : StepPlain o key u e v)
    (hcalls : ∀ n t phase, u.Active n (.sync ⟨t, phase⟩) → phase.agrees b = true) :
    v.hasCheckout o key = u.hasCheckout o key := by
  rcases present_of_step ⟨hstep.1, hstep.2.1⟩ with
    hsame | ⟨n, t, phase, hn, htouches⟩ | ⟨-, n, _, _, _, hn⟩
  · exact hsame
  · have := SyncPhase.not_touches_of_agrees (hcalls n t phase hn)
    exact absurd (htouches.symm.trans this) (by simp)
  · obtain ⟨t, phase, hk, -⟩ := plain_of_run hrun hn
    simp at hk

/-- While a call is at its work, all others are outside. -/
theorem isOutside_of_ne (hrun : Run (StepPlain o key) (start fs) events u)
    (hn : u.Active n (.sync ⟨t, phase⟩)) (hwork : phase.lockCall? = some (.working place))
    {t' : SyncTask} (hm : u.Active m (.sync ⟨t', phase'⟩)) (hmn : m ≠ n) :
    phase'.isOutside = true := by
  rcases phase'.isOutside_or_working with houtside | ⟨place', hwork'⟩
  · exact houtside
  · exact absurd (one_works (runAlone_of_runPlain hrun) hm hn (CheckoutCall.seat?_sync hwork')
      (CheckoutCall.seat?_sync hwork) rfl rfl) hmn

/-- A call that begins looks first. -/
theorem eq_looking_of_began {c c' : Checkouts} (hbegins : (CheckoutCall.sync s).Begins o c c')
    (hplain : (CheckoutEvent.began n (.sync s)).IsPlain) : s.phase = .looking := by
  rcases hbegins.sync with ⟨-, hlooking⟩ | ⟨hforced, -⟩
  · exact hlooking
  · exact absurd (hforced.symm.trans hplain) (by simp)

/-- While nobody is at a clone a step is one of three. Nothing is asked for; or a call that has found
the checkout missing begins to clone; or a call returns. -/
theorem silent_or (hrun : Run (StepPlain o key) (start fs) events u) (hstep : StepPlain o key u e v)
    {b : Bool} (hpresent : u.hasCheckout o key = b)
    (hcalls : ∀ n t phase, u.Active n (.sync ⟨t, phase⟩) → phase.agrees b = true) :
    (e.IsSilent ∧ ∀ n t phase, e.enters? = some (n, .sync ⟨t, phase⟩) → phase.agrees b = true) ∨
    (b = false ∧ ∃ n k news t place, e = .moved n k news (.sync ⟨t, .preparing place⟩) ∧
      v.Active n (.sync ⟨t, .preparing place⟩)) ∨
    ∃ n t phase news x c, e = .returned n (.sync ⟨t, phase⟩) news (.synchronized x) ∧
      IsPlainCall o key (.sync ⟨t, phase⟩) ∧ phase.agrees b = true ∧
      Synchronization.Returns o u.now u.checkouts ⟨t, phase⟩ news x c := by
  obtain ⟨hs, -, hplain⟩ := id hstep
  cases hs with
  | begin order hbegin =>
    refine Or.inl ⟨⟨rfl, rfl, rfl, rfl⟩, ?_⟩
    rintro n t phase ⟨⟩
    obtain rfl : phase = .looking :=
      eq_looking_of_began (CheckoutCall.begins_of_begin hbegin) hplain
    rfl
  | refuse => exact Or.inl ⟨⟨rfl, rfl, rfl, rfl⟩, by rintro _ _ _ ⟨⟩⟩
  | print => exact Or.inl ⟨⟨rfl, rfl, rfl, rfl⟩, by rintro _ _ _ ⟨⟩⟩
  | change => exact Or.inl ⟨⟨rfl, rfl, rfl, rfl⟩, by rintro _ _ _ ⟨⟩⟩
  | pass => exact Or.inl ⟨⟨rfl, rfl, rfl, rfl⟩, by rintro _ _ _ ⟨⟩⟩
  | drop => exact hplain.elim
  | @turn n k k' c news hn hnews hturn =>
    obtain ⟨t, phase, rfl, hforce, -, hpath⟩ := plain_of_run hrun hn
    have hphase := hcalls n t phase hn
    have hpresent : u.checkouts.fs.present t.path = b := hpath ▸ hpresent
    cases CheckoutCall.moves_of_turn hturn with
    | sync hmoves =>
      cases hmoves with
      | look =>
        refine Or.inl ⟨⟨rfl, rfl, rfl, rfl⟩, ?_⟩
        rintro _ _ _ ⟨⟩
        simp [SyncPhase.agrees, hpresent]
      | arrive =>
        refine Or.inl ⟨⟨rfl, rfl, rfl, rfl⟩, ?_⟩
        rintro _ _ _ ⟨⟩
        rfl
      | enter =>
        refine Or.inl ⟨⟨rfl, rfl, rfl, rfl⟩, ?_⟩
        rintro _ _ _ ⟨⟩
        rfl
      | check =>
        refine Or.inl ⟨⟨rfl, rfl, rfl, rfl⟩, ?_⟩
        rintro _ _ _ ⟨⟩
        simp [SyncPhase.agrees, hpresent]
      | @prepare _ place =>
        have hmissing : b = false := by simpa [SyncPhase.agrees] using hphase
        exact Or.inr (Or.inl ⟨hmissing, n, _, news, t, place, rfl,
          (active_put hn).mpr (Or.inl ⟨rfl, rfl⟩)⟩)
      | pull hforced => exact absurd (hforce.symm.trans hforced) (by simp)
      | _ => simp [SyncPhase.agrees] at hphase
  | @finish n k r c news hn hnews hturn =>
    obtain ⟨t, phase, rfl, hcall⟩ := plain_of_run hrun hn
    cases CheckoutCall.returns_of_turn hturn with
    | sync hreturns =>
      exact Or.inr (Or.inr ⟨n, t, phase, news, _, c, rfl, ⟨t, phase, rfl, hcall⟩,
        hcalls n t phase hn, hreturns⟩)

/-! ### The stages -/

/-- No outcome is kept. -/
def NoneKept (w : CheckoutWorld) : Prop :=
  ∀ n s, w.checkouts.locks.slot? n = some s → s.last = none

theorem NoneKept.of_sameOutcomes (h : u.NoneKept)
    (houtcomes : u.checkouts.locks.SameOutcomes v.checkouts.locks) : v.NoneKept := by
  intro n s hs
  rcases houtcomes n s hs with ⟨s₀, hs₀, hlast, -⟩ | hnone
  · exact hlast.trans (h n s₀ hs₀)
  · exact hnone

/-- Nobody shares an outcome when none is kept. -/
theorem NoneKept.not_overtaken (h : u.NoneKept)
    (hover : u.checkouts.locks.admission place = .overtaken x) : False := by
  obtain ⟨s, hs, -, hlast, -⟩ := PathLocks.admission_eq_overtaken hover
  exact absurd ((h _ s hs).symm.trans hlast) (by simp)

/-- The checkout is missing, and nobody has taken it upon himself to clone it. -/
structure Missing (o : SyncOptions) (key : RepositoryKey) (events : List CheckoutEvent)
    (w : CheckoutWorld) : Prop where
  attempts : events.filterMap CheckoutEvent.attempt? = []
  commands : events.filterMap CheckoutEvent.command? = []
  told : events.filterMap CheckoutEvent.tells? = []
  reports : events.filterMap CheckoutEvent.report? = []
  absent : w.hasCheckout o key = false
  fresh : w.NoneKept
  calls : ∀ n t phase, w.Active n (.sync ⟨t, phase⟩) → phase.agrees false = true

/-- The commands that a synchronization has run, and who is told, when it has come so far with a
clone. -/
inductive Asked (o : SyncOptions) (t : SyncTask) :
    SyncPhase → List Command → List RepositoryKey → Prop
  | preparing {place : PathLocks.Place} : Asked o t (.preparing place) [] []
  | cloning {place : PathLocks.Place} {run : SyncRun} (hgit : run.isBuild = false)
      (haction : run.action = .cloned) :
      Asked o t (.running place run) [o.cloneCommand t.address t.path t.token] []
  | building {place : PathLocks.Place} {run : SyncRun} {build : Command}
      (hbuild : run.isBuild = true) (haction : run.action = .cloned)
      (hcommand : o.buildCommandIn t.path = some build) :
      Asked o t (.running place run) [o.cloneCommand t.address t.path t.token, build] []
  | telling {place : PathLocks.Place} {action : SyncAction} {built : Bool} {commands : List Command}
      (haction : action = .cloned) (hbuilt : built = (o.buildCommandIn t.path).isSome)
      (hcommands : commands =
        o.cloneCommand t.address t.path t.token :: (o.buildCommandIn t.path).toList) :
      Asked o t (.invalidating place action built) commands [t.address.key]

theorem Asked.working {cs : List Command} {ks : List RepositoryKey} (h : Asked o t phase cs ks) :
    ∃ place, phase.lockCall? = some (.working place) := by
  cases h <;> exact ⟨_, rfl⟩

/-- One call is cloning, and no outcome is kept. -/
structure Cloning (o : SyncOptions) (events : List CheckoutEvent) (w : CheckoutWorld) (n : Nat)
    (t : SyncTask) (phase : SyncPhase) : Prop where
  active : w.Active n (.sync ⟨t, phase⟩)
  attempts : events.filterMap CheckoutEvent.attempt? = [n]
  asked : Asked o t phase (events.filterMap CheckoutEvent.command?)
    (events.filterMap CheckoutEvent.tells?)
  reports : events.filterMap CheckoutEvent.report? = []
  fresh : w.NoneKept

/-- An outcome of a synchronization that has cloned the checkout, or has found it. -/
def Succeeds (o : SyncOptions) (key : RepositoryKey) (x : SyncResult) : Prop :=
  x = .ok ⟨key, key.checkoutPath o.root, .cloned,
      (o.buildCommandIn (key.checkoutPath o.root)).isSome⟩ ∨
    x = .ok ⟨key, key.checkoutPath o.root, .skipped, false⟩

/-- A clone of the repository. -/
def IsClone (o : SyncOptions) (key : RepositoryKey) (c : Command) : Prop :=
  ∃ address token, address.key = key ∧
    c = o.cloneCommand address (key.checkoutPath o.root) token

/-- The checkout was cloned. -/
structure Cloned (o : SyncOptions) (key : RepositoryKey) (events : List CheckoutEvent)
    (w : CheckoutWorld) : Prop where
  commands : ∃ c, IsClone o key c ∧ events.filterMap CheckoutEvent.command? =
    c :: (o.buildCommandIn (key.checkoutPath o.root)).toList
  told : events.filterMap CheckoutEvent.tells? = [key]
  reports : ∀ r ∈ events.filterMap CheckoutEvent.report?, ∃ x, r = .synchronized x ∧ Succeeds o key x
  present : w.hasCheckout o key = true
  kept : ∀ n s x, w.checkouts.locks.slot? n = some s → s.last = some x → Succeeds o key x
  calls : ∀ n t phase, w.Active n (.sync ⟨t, phase⟩) → phase.agrees true = true

/-! ### The checkout is missing -/

/-- Nothing changes as long as nothing is asked for. -/
theorem Missing.quiet (h : Missing o key events u)
    (hrun : Run (StepPlain o key) (start fs) events u) (hstep : StepPlain o key u e v)
    (hsilent : e.IsSilent)
    (hnew : ∀ n t phase, e.enters? = some (n, .sync ⟨t, phase⟩) → phase.agrees false = true) :
    Missing o key (events ++ [e]) v where
  attempts := by simp [h.attempts, hsilent.attempt]
  commands := by simp [h.commands, hsilent.command]
  told := by simp [h.told, hsilent.tells]
  reports := by simp [h.reports, hsilent.report]
  absent := (present_of_agrees hrun hstep h.calls).trans h.absent
  fresh := h.fresh.of_sameOutcomes (sameOutcomes_of_report?_eq_none hstep.1 hsilent.report)
  calls := forall_active_of_step hstep.1 h.calls hnew

/-- As long as the checkout is missing no call returns, and a call that finds it missing while it has
the slot begins to clone. -/
theorem Missing.step (h : Missing o key events u)
    (hrun : Run (StepPlain o key) (start fs) events u) (hstep : StepPlain o key u e v) :
    Missing o key (events ++ [e]) v ∨ ∃ n t phase, Cloning o (events ++ [e]) v n t phase := by
  rcases silent_or hrun hstep h.absent h.calls with ⟨hsilent, hnew⟩ |
    ⟨-, n, k, news, t, place, rfl, hn⟩ | ⟨n, t, phase, news, x, c, -, -, hphase, hreturns⟩
  · exact Or.inl (h.quiet hrun hstep hsilent hnew)
  · refine Or.inr ⟨n, t, .preparing place, hn, ?_, ?_, ?_, ?_⟩
    · simp [h.attempts, CheckoutEvent.attempt?]
    · rw [List.filterMap_append, h.commands, List.filterMap_append, h.told]
      exact .preparing
    · simp [h.reports, CheckoutEvent.report?]
    · exact h.fresh.of_sameOutcomes (sameOutcomes_of_report?_eq_none hstep.1 rfl)
  · cases hreturns with
    | share hover => exact (h.fresh.not_overtaken hover).elim
    | _ => simp [SyncPhase.agrees] at hphase

/-! ### A call is cloning -/

theorem Cloning.quiet (h : Cloning o events u n t phase) (hstep : Step o u e v)
    (hsilent : e.IsSilent) (hother : e.call? ≠ some n) : Cloning o (events ++ [e]) v n t phase where
  active := hstep.active_of_ne h.active hother
  attempts := by simp [h.attempts, hsilent.attempt]
  asked := by simpa [hsilent.command, hsilent.tells] using h.asked
  reports := by simp [h.reports, hsilent.report]
  fresh := h.fresh.of_sameOutcomes (sameOutcomes_of_report?_eq_none hstep hsilent.report)

/-- A clone asks for what comes next. -/
theorem Asked.moves {now : Nat} {c c' : Checkouts} {s' : Synchronization} {cs : List Command}
    {ks : List RepositoryKey} (h : Asked o t phase cs ks)
    (hmoves : Synchronization.Moves o now c ⟨t, phase⟩ news s' c')
    (he : e = .moved n (.sync ⟨t, phase⟩) news (.sync s')) :
    Asked o t s'.phase (cs ++ [e].filterMap CheckoutEvent.command?)
        (ks ++ [e].filterMap CheckoutEvent.tells?) ∧ e.attempt? = none := by
  subst he
  cases h with
  | preparing =>
    cases hmoves with
    | clone => exact ⟨.cloning rfl rfl, rfl⟩
  | cloning hgit haction =>
    cases hmoves with
    | build hsuccess hgit' hcommand => exact ⟨.building rfl haction hcommand, rfl⟩
    | tell hsuccess hbuilt hlast =>
      have hnot := hbuilt.symm.trans hgit
      have hnone := hlast.resolve_left (by simp [hnot])
      exact ⟨.telling haction (by simp [hnot, hnone]) (by rw [hnone]; rfl), rfl⟩
  | building hbuild haction hcommand =>
    cases hmoves with
    | build hsuccess hgit => exact absurd (hbuild.symm.trans hgit) (by simp)
    | tell hsuccess hbuilt =>
      have hdone := hbuilt.symm.trans hbuild
      exact ⟨.telling haction (by simp [hdone, hcommand]) (by rw [hcommand]; rfl), rfl⟩
  | telling => cases hmoves

/-- While one call is cloning the others look, arrive and wait. -/
theorem Cloning.isSilent (h : Cloning o events u n t phase)
    (hrun : Run (StepPlain o key) (start fs) events u) (hstep : StepPlain o key u e v)
    (hother : e.call? ≠ some n) : e.IsSilent := by
  obtain ⟨hs, -, hplain⟩ := hstep
  obtain ⟨place, hwork⟩ := h.asked.working
  have outside {m : Nat} {t' : SyncTask} {phase' : SyncPhase} (hm : u.Active m (.sync ⟨t', phase'⟩))
      (hmn : m ≠ n) : phase'.isOutside = true :=
    isOutside_of_ne hrun h.active hwork hm hmn
  cases hs with
  | begin => exact ⟨rfl, rfl, rfl, rfl⟩
  | refuse => exact ⟨rfl, rfl, rfl, rfl⟩
  | print => exact ⟨rfl, rfl, rfl, rfl⟩
  | change => exact ⟨rfl, rfl, rfl, rfl⟩
  | pass => exact ⟨rfl, rfl, rfl, rfl⟩
  | drop => exact hplain.elim
  | @turn m k k' c news hm hnews hturn =>
    obtain ⟨t', phase', rfl, -⟩ := plain_of_run hrun hm
    have houtside := outside hm fun hmn ↦ hother (congrArg some hmn)
    cases CheckoutCall.moves_of_turn hturn with
    | sync hmoves =>
      cases hmoves with
      | look => exact ⟨rfl, rfl, rfl, rfl⟩
      | arrive => exact ⟨rfl, rfl, rfl, rfl⟩
      | enter => exact ⟨rfl, rfl, rfl, rfl⟩
      | _ => simp [SyncPhase.isOutside] at houtside
  | @finish m k r c news hm hnews hturn =>
    obtain ⟨t', phase', rfl, -, -, hpath⟩ := plain_of_run hrun hm
    have houtside := outside hm fun hmn ↦ hother (congrArg some hmn)
    cases CheckoutCall.returns_of_turn hturn with
    | sync hreturns =>
      cases hreturns with
      | skip hfree =>
        -- The slot is held by the call that is cloning.
        obtain ⟨-, -, hpath₀⟩ := (plain_of_run hrun h.active).task
        have hheld := (seated_of_runAlone (runAlone_of_runPlain hrun)).isHeld
          (h.active.seats_eq.trans (CheckoutCall.seat?_sync hwork))
        rw [hpath] at hfree
        rw [hpath₀] at hheld
        exact absurd (hfree.symm.trans hheld) (by simp)
      | share hover => exact (h.fresh.not_overtaken hover).elim
      | _ => simp [SyncPhase.isOutside] at houtside

/-- When the call that is cloning returns, the checkout was cloned. -/
theorem Cloning.ends {action : SyncAction} {built : Bool} {c : Checkouts}
    (h : Cloning o events u n t (.invalidating place action built))
    (hrun : Run (StepPlain o key) (start fs) events u)
    (he : e = .returned n (.sync ⟨t, .invalidating place action built⟩) .invalidated
      (.synchronized (.ok ⟨t.address.key, t.path, action, built⟩)))
    (hc : c = u.checkouts.concluded place (.ok ⟨t.address.key, t.path, action, built⟩)) :
    Cloned o key (events ++ [e]) (u.put n none c) := by
  subst he hc
  obtain ⟨-, hkey, hpath⟩ := (plain_of_run hrun h.active).task
  have hasked := h.asked
  generalize hcommands : events.filterMap CheckoutEvent.command? = commands at hasked
  generalize htold : events.filterMap CheckoutEvent.tells? = told at hasked
  cases hasked with
  | telling haction hbuilt hall =>
    have hsucceeds : Succeeds o key (.ok ⟨t.address.key, t.path, action, built⟩) := by
      rw [hkey, hpath, haction, hbuilt, hpath]
      exact Or.inl rfl
    refine ⟨⟨o.cloneCommand t.address t.path t.token, ?_, ?_⟩, ?_, ?_, ?_, ?_, ?_⟩
    · exact ⟨t.address, t.token, hkey, by rw [hpath]⟩
    · rw [List.filterMap_append, hcommands, hall, hpath]
      exact List.append_nil _
    · rw [List.filterMap_append, htold, hkey]
      rfl
    · rw [List.filterMap_append, h.reports]
      rintro r hr
      obtain rfl : r = _ := by simpa [CheckoutEvent.report?] using hr
      exact ⟨_, rfl, hsucceeds⟩
    · have hpresent : u.hasCheckout o key = true :=
        present_of_assures (runAlone_of_runPlain hrun) h.active rfl
      exact hpresent
    · intro m s x hs hlast
      rcases PathLocks.finish_eq_some hs with ⟨-, hkept⟩ | ⟨-, s₀, hs₀, hsame, -⟩
      · obtain rfl := Option.some.inj (hkept.symm.trans hlast)
        exact hsucceeds
      · exact absurd ((h.fresh m s₀ hs₀).symm.trans (hsame.symm.trans hlast)) (by simp)
    · intro m t' phase' hm
      obtain ⟨-, hm⟩ | ⟨hmn, hm⟩ := (active_put h.active).mp hm
      · simp at hm
      · exact SyncPhase.agrees_of_isOutside (isOutside_of_ne hrun h.active rfl hm hmn)

/-- While one call is cloning no other returns, and when it returns, the checkout was cloned. -/
theorem Cloning.step (h : Cloning o events u n t phase)
    (hrun : Run (StepPlain o key) (start fs) events u) (hstep : StepPlain o key u e v)
    (hfirst : FirstSucceeds (events ++ [e])) :
    (∃ phase, Cloning o (events ++ [e]) v n t phase) ∨ Cloned o key (events ++ [e]) v := by
  by_cases hcall : e.call? = some n
  swap
  · exact Or.inl ⟨phase, h.quiet hstep.1 (h.isSilent hrun hstep hcall) hcall⟩
  -- The call that is cloning does not fail.
  have hsucceeds : ∀ news error,
      e ≠ .returned n (.sync ⟨t, phase⟩) news (.synchronized (.error error)) := by
    rintro news error rfl
    exact hfirst n (by simp [h.attempts]) _ (List.mem_append_right _ List.mem_cons_self) rfl
  cases hstep.1 with
  | @turn m k k' c news hm hnews hturn =>
    obtain rfl : m = n := Option.some.inj hcall
    obtain rfl : k = .sync ⟨t, phase⟩ := by simpa [Active] using hm.symm.trans h.active
    cases CheckoutCall.moves_of_turn hturn with
    | @sync _ s' _ _ hmoves =>
      obtain ⟨hasked, hattempt⟩ := h.asked.moves (n := m) hmoves rfl
      obtain rfl : s'.task = t := hmoves.task_eq
      refine Or.inl ⟨s'.phase, ?_, ?_, ?_, ?_, ?_⟩
      · exact (active_put hm).mpr (Or.inl ⟨rfl, rfl⟩)
      · simp [h.attempts, hattempt]
      · rw [List.filterMap_append, List.filterMap_append]
        exact hasked
      · simp [h.reports, CheckoutEvent.report?]
      · exact h.fresh.of_sameOutcomes (sameOutcomes_of_report?_eq_none hstep.1 rfl)
  | @finish m k r c news hm hnews hturn =>
    obtain rfl : m = n := Option.some.inj hcall
    obtain rfl : k = .sync ⟨t, phase⟩ := by simpa [Active] using hm.symm.trans h.active
    have hasked := h.asked
    cases CheckoutCall.returns_of_turn hturn with
    | sync hreturns =>
      cases hreturns with
      | told => exact Or.inr (h.ends hrun rfl rfl)
      | unprepared => exact absurd rfl (hsucceeds _ _)
      | fail => exact absurd rfl (hsucceeds _ _)
      | skip => cases hasked
      | share => cases hasked
      | find => cases hasked
  | drop => exact hstep.2.2.elim
  | _ => simp [CheckoutEvent.call?] at hcall

/-! ### The checkout was cloned -/

/-- The checkout stays cloned while nothing is asked for and all outcomes are good. -/
theorem Cloned.after (h : Cloned o key events u)
    (hrun : Run (StepPlain o key) (start fs) events u) (hstep : StepPlain o key u e v)
    (hcommand : e.command? = none) (htells : e.tells? = none)
    (hreport : ∀ r, e.report? = some r → ∃ x, r = .synchronized x ∧ Succeeds o key x)
    (hnew : ∀ n t phase, e.enters? = some (n, .sync ⟨t, phase⟩) → phase.agrees true = true) :
    Cloned o key (events ++ [e]) v where
  commands := by simpa [hcommand] using h.commands
  told := by simp [h.told, htells]
  reports := by
    intro r hr
    rw [List.filterMap_append, List.mem_append] at hr
    rcases hr with hr | hr
    · exact h.reports r hr
    · exact hreport r (by simpa using hr)
  present := (present_of_agrees hrun hstep h.calls).trans h.present
  kept := by
    intro n s x hs hlast
    rcases hstep.1.sameOutcomes_or_records with
      houtcomes | ⟨m, t, phase, place, y, hrecords, -, -, hlocks⟩
    · rcases houtcomes n s hs with ⟨s₀, hs₀, hsame, -⟩ | hnone
      · exact h.kept n s₀ x hs₀ (hsame.symm.trans hlast)
      · exact absurd (hnone.symm.trans hlast) (by simp)
    · rw [hlocks] at hs
      rcases PathLocks.finish_eq_some hs with ⟨-, hkept⟩ | ⟨-, s₀, hs₀, hsame, -⟩
      · obtain rfl := Option.some.inj (hkept.symm.trans hlast)
        cases hrecords
        obtain ⟨x, hx, hsucceeds⟩ := hreport _ rfl
        obtain rfl := CheckoutReport.synchronized.inj hx
        exact hsucceeds
      · exact h.kept n s₀ x hs₀ (hsame.symm.trans hlast)
  calls := forall_active_of_step hstep.1 h.calls hnew

/-- Once the checkout was cloned everybody finds it or shares an outcome. -/
theorem Cloned.step (h : Cloned o key events u)
    (hrun : Run (StepPlain o key) (start fs) events u) (hstep : StepPlain o key u e v) :
    Cloned o key (events ++ [e]) v := by
  rcases silent_or hrun hstep h.present h.calls with ⟨hsilent, hnew⟩ | ⟨hmissing, -⟩ |
    ⟨n, t, phase, news, x, c, rfl, hcall, hphase, hreturns⟩
  · refine h.after hrun hstep hsilent.command hsilent.tells ?_ hnew
    simp [hsilent.report]
  · simp at hmissing
  · refine h.after hrun hstep rfl rfl ?_ (by rintro _ _ _ ⟨⟩)
    rintro _ ⟨⟩
    refine ⟨x, rfl, ?_⟩
    obtain ⟨-, hkey, hpath⟩ := hcall.task
    have hskipped : Succeeds o key (.ok (Synchronization.skipped t)) := by
      rw [Synchronization.skipped, hkey, hpath]
      exact Or.inr rfl
    cases hreturns with
    | skip => exact hskipped
    | find => exact hskipped
    | share hover =>
      obtain ⟨s, hs, -, hlast, -⟩ := PathLocks.admission_eq_overtaken hover
      exact h.kept _ s _ hs hlast
    | _ => simp [SyncPhase.agrees] at hphase

/-! ### All stages -/

/-- A run is in one of the three stages. -/
theorem stage_of_run (habsent : fs.present (key.checkoutPath o.root) = false)
    (h : Run (StepPlain o key) (start fs) events w) (hfirst : FirstSucceeds events) :
    Missing o key events w ∨ (∃ n t phase, Cloning o events w n t phase) ∨ Cloned o key events w := by
  induction h with
  | nil =>
    refine Or.inl ⟨rfl, rfl, rfl, rfl, habsent, ?_, ?_⟩
    · intro n s hs
      simp [start, PathLocks.none, PathLocks.slot?] at hs
    · intro n t phase hn
      simp [Active, start] at hn
  | snoc h hstep ih =>
    rcases ih hfirst.of_append with hmissing | ⟨n, t, phase, hcloning⟩ | hcloned
    · exact (hmissing.step h hstep).imp_right Or.inl
    · rcases hcloning.step h hstep hfirst with ⟨phase, hcloning⟩ | hcloned
      · exact Or.inr (Or.inl ⟨n, t, phase, hcloning⟩)
      · exact Or.inr (Or.inr hcloned)
    · exact Or.inr (Or.inr (hcloned.step h hstep))

/-- What callers of synchronizations that are not forced may rely on. -/
structure ClonedOnce (o : SyncOptions) (key : RepositoryKey) (events : List CheckoutEvent)
    (w : CheckoutWorld) : Prop where
  /-- The first command is a clone, and nothing is run after it but the build, and that once. -/
  commands : ∀ c more, events.filterMap CheckoutEvent.command? = c :: more →
    IsClone o key c ∧ more <+: (o.buildCommandIn (key.checkoutPath o.root)).toList
  /-- Others are told once at most. -/
  told : events.filterMap CheckoutEvent.tells? <+: [key]
  /-- Before any call returns, the clone and the build were run and others were told. -/
  complete : events.filterMap CheckoutEvent.report? ≠ [] →
    (∃ c, IsClone o key c ∧ events.filterMap CheckoutEvent.command? =
      c :: (o.buildCommandIn (key.checkoutPath o.root)).toList) ∧
    events.filterMap CheckoutEvent.tells? = [key]
  /-- A call returns that the checkout was cloned, which is what all return who share it, or that
  there was nothing to do. -/
  reports : ∀ r ∈ events.filterMap CheckoutEvent.report?, ∃ x, r = .synchronized x ∧ Succeeds o key x
  accounted : ∀ n < w.calls.length,
    (∃ k, w.Active n k) ∨ ∃ k news report, .returned n k news report ∈ events
  /-- As long as a call is under way some call can go on. -/
  goesOn : ∀ n k, w.Active n k → ∃ m k', w.Active m k' ∧ k'.CanGoOn o w.now w.checkouts
  /-- Calls do not go on forever. -/
  bounded : events.countP CheckoutEvent.isTurn ≤ 9 * w.calls.length

/-- While a call is cloning, the commands are those of the clone as far as it has come. -/
theorem Asked.limits {cs : List Command} {ks : List RepositoryKey} (h : Asked o t phase cs ks)
    (hkey : t.address.key = key) (hpath : t.path = key.checkoutPath o.root) :
    (∀ c more, cs = c :: more →
      IsClone o key c ∧ more <+: (o.buildCommandIn (key.checkoutPath o.root)).toList) ∧
      ks <+: [key] := by
  have hclone : IsClone o key (o.cloneCommand t.address t.path t.token) :=
    ⟨t.address, t.token, hkey, by rw [hpath]⟩
  rw [← hpath]
  cases h with
  | preparing => exact ⟨by rintro _ _ ⟨⟩, List.nil_prefix⟩
  | cloning =>
    refine ⟨?_, List.nil_prefix⟩
    rintro _ _ ⟨⟩
    exact ⟨hclone, List.nil_prefix⟩
  | building _ _ hcommand =>
    refine ⟨?_, List.nil_prefix⟩
    rintro _ _ ⟨⟩
    exact ⟨hclone, by simp [hcommand]⟩
  | telling _ _ hcommands =>
    refine ⟨?_, by simp [hkey]⟩
    rintro c more hall
    obtain ⟨rfl, rfl⟩ := List.cons.inj (hall.symm.trans hcommands)
    exact ⟨hclone, List.prefix_refl _⟩

/-- In every run of synchronizations of one repository that are not forced, in which nobody else
touches the checkout and no call is given up: when the checkout is missing in the beginning and the
first clone does not fail, the checkout is cloned once, and everybody returns well. -/
theorem clonedOnce_of_run (habsent : fs.present (key.checkoutPath o.root) = false)
    (h : Run (StepPlain o key) (start fs) events w) (hfirst : FirstSucceeds events) :
    ClonedOnce o key events w := by
  have hall : Run (Step o) (start fs) events w := h.mono fun _ _ _ hstep ↦ hstep.1
  have haccounted : ∀ n < w.calls.length,
      (∃ k, w.Active n k) ∨ ∃ k news report, .returned n k news report ∈ events := by
    intro n hn
    rcases accounted_of_run hall hn with hactive | hreturned | ⟨k, hdropped⟩
    · exact Or.inl hactive
    · exact Or.inr hreturned
    · exact (isPlain_of_run h hdropped).elim
  have hgoes : ∀ n k, w.Active n k → ∃ m k', w.Active m k' ∧ k'.CanGoOn o w.now w.checkouts :=
    fun n k hn ↦ goes_on_of_run hall hn
  have hbounded : events.countP CheckoutEvent.isTurn ≤ 9 * w.calls.length := by
    have := turns_le_of_run hall
    omega
  rcases stage_of_run habsent h hfirst with hmissing | ⟨n, t, phase, hcloning⟩ | hcloned
  · refine ⟨?_, ?_, ?_, ?_, haccounted, hgoes, hbounded⟩
    · simp [hmissing.commands]
    · simp [hmissing.told]
    · simp [hmissing.reports]
    · simp [hmissing.reports]
  · obtain ⟨-, hkey, hpath⟩ := (plain_of_run h hcloning.active).task
    obtain ⟨hcommands, htold⟩ := hcloning.asked.limits hkey hpath
    refine ⟨hcommands, htold, ?_, ?_, haccounted, hgoes, hbounded⟩
    · simp [hcloning.reports]
    · simp [hcloning.reports]
  · obtain ⟨c, hclone, hcommands⟩ := hcloned.commands
    refine ⟨?_, ?_, ?_, hcloned.reports, haccounted, hgoes, hbounded⟩
    · intro c' more hmore
      obtain ⟨rfl, rfl⟩ := List.cons.inj (hmore.symm.trans hcommands)
      exact ⟨hclone, List.prefix_refl _⟩
    · simp [hcloned.told]
    · exact fun _ ↦ ⟨⟨c, hclone, hcommands⟩, hcloned.told⟩

/-- Two synchronizations come to a missing checkout; one clones it, and the other one shares the
outcome. -/
theorem clonedOnce_shared : ∃ key events w,
    FileSystem.empty.present (key.checkoutPath SyncOptions.plain.root) = false ∧
      Run (StepPlain .plain key) (start .empty) events w ∧ FirstSucceeds events ∧
      (events.filterMap CheckoutEvent.report?).length = 2 ∧ ClonedOnce .plain key events w := by
  let key : RepositoryKey := ⟨"github.com", "o/r"⟩
  let plays := (start .empty).play .plain (fun u e v ↦ Undisturbed .plain key u e v ∧ e.IsPlain)
    [.call (.synchronize "https://github.com/o/r" false none), .go 0 .nothing, .go 0 .nothing,
      .call (.synchronize "https://github.com/o/r" false none), .go 1 .nothing, .go 1 .nothing,
      .go 0 .nothing, .go 0 .nothing, .go 0 .nothing, .go 0 .nothing, .change .withCheckout,
      .go 0 (.ended (.ok ⟨some 0⟩)), .go 0 .invalidated, .go 1 .nothing]
  have habsent : FileSystem.empty.present (key.checkoutPath SyncOptions.plain.root) = false := by
    decide +kernel
  have hplays : (plays.any fun x ↦ x.1.all (·.failure?.isNone) &&
      (x.1.filterMap CheckoutEvent.report?).length = 2) = true := by decide +kernel
  obtain ⟨⟨events, w⟩, hplay, hcheck⟩ := (Option.any_eq_true ..).mp hplays
  simp only [Bool.and_eq_true, List.all_eq_true, decide_eq_true_eq, Option.isNone_iff_eq_none]
    at hcheck
  obtain ⟨hnone, htwo⟩ := hcheck
  have hfirst : FirstSucceeds events := fun n _ e he ↦ by simp [hnone e he]
  have hrun := run_of_play hplay
  exact ⟨key, events, w, habsent, hrun, hfirst, htwo, clonedOnce_of_run habsent hrun hfirst⟩

end CheckoutWorld

end CodeNav
