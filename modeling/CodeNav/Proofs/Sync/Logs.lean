import CodeNav.Proofs.Sync.Seats

/-!
# Logs of synchronizations

A synchronization that has something to do begins the log of its repository while it has the slot for
itself, and until it is over nobody else writes to that log. The log only grows until the next
synchronization begins it again. It is complete before the slot is given up, whichever way the work
ends, and says then whether it failed, and how. Calls that have nothing to do write to no log, and
readers change nothing.

## Main definitions

* `LogWorld`: calls on checkouts, and the readers of logs
* `LogWorld.Step`: how calls, commands and readers take turns when no synchronization is given up
* `LogEvent.Starts`: a synchronization begins a log
* `SyncPhase.logStage`: how the log of a synchronization stands
* `CheckoutCall.logs?`: the log that a call has begun

## Main statements

* `LogWorld.stands_of_run`: how logs stand in the phases of a synchronization
* `LogWorld.log_of_step`: what happens to a log in a step
* `LogWorld.logs_of_run`: what is known of logs all along
-/

namespace CodeNav

/-! ### Boards -/

namespace ProgressBoard

theorem lookup_putLog (key key' : RepositoryKey) (l : ProgressLog)
    (logs : List (RepositoryKey × ProgressLog)) :
    (putLog key l logs).lookup key' = if key' = key then some l else logs.lookup key' := by
  induction logs with
  | nil =>
    by_cases hkey : key' = key
    · simp [putLog, hkey]
    · simp [putLog, hkey, List.lookup_cons, beq_false_of_ne hkey]
  | cons entry rest ih =>
    obtain ⟨k, old⟩ := entry
    by_cases hk : k = key
    · subst hk
      by_cases hkey : key' = k
      · simp [putLog, hkey]
      · simp [putLog, hkey, List.lookup_cons, beq_false_of_ne hkey]
    · by_cases hkey : key' = k
      · subst hkey
        simp [putLog, hk]
      · simp [putLog, hk, List.lookup_cons, beq_false_of_ne hkey, ih]

/-- Only the log that is changed is another one. -/
theorem log_change (b : ProgressBoard) (key key' : RepositoryKey) (f : ProgressLog → ProgressLog) :
    (b.change key f).log key' = if key' = key then f (b.log key) else b.log key' := by
  by_cases hkey : key' = key <;> simp [change, log, lookup_putLog, hkey]

theorem log_begin (b : ProgressBoard) (key key' : RepositoryKey) :
    (b.begin key).log key' = if key' = key then (b.log key).reset else b.log key' :=
  b.log_change key key' ProgressLog.reset

end ProgressBoard

namespace ProgressLog

variable {l : ProgressLog} {text : String}

theorem snapshot_append (l : ProgressLog) (text : String) :
    (l.append text).snapshot = { l.snapshot with text := l.snapshot.text ++ text } := by
  by_cases h : text = "" <;> simp [append, changed, h]

/-- The text of a log is that of another one, with more text after it. -/
def Continues (l l' : ProgressLog) : Prop :=
  ∃ more : String, l'.snapshot.text = l.snapshot.text ++ more

/-- The log is complete and tells how a synchronization ended: whether it failed, and how. -/
structure Tells (l : ProgressLog) (x : SyncResult) : Prop where
  complete : l.snapshot.complete = true
  failed : l.snapshot.failed = true ↔ ∃ e, x = .error e
  last : ∀ e, x = .error e → ∃ before : String, l.snapshot.text = before ++ (e.message ++ "\n")

theorem continues_refl (l : ProgressLog) : l.Continues l := ⟨"", by simp⟩

theorem Continues.trans {l' l'' : ProgressLog} (h : l.Continues l') (h' : l'.Continues l'') :
    l.Continues l'' := by
  obtain ⟨more, hmore⟩ := h
  obtain ⟨more', hmore'⟩ := h'
  exact ⟨more ++ more', by rw [hmore', hmore, String.append_assoc]⟩

theorem continues_append (l : ProgressLog) (text : String) : l.Continues (l.append text) :=
  ⟨text, by rw [snapshot_append]⟩

theorem continues_finish (l : ProgressLog) (failed : Bool) : l.Continues (l.finish failed) :=
  l.continues_refl

end ProgressLog

/-! ### How logs stand -/

/-- How the log of its repository stands for a synchronization. -/
inductive LogStage where
  | unbegun
  | begun
  | finished
  deriving DecidableEq

/-- How the log of its repository stands for a synchronization in this phase. -/
def SyncPhase.logStage : SyncPhase → LogStage
  | looking => .unbegun
  | looked _ => .unbegun
  | waiting _ => .unbegun
  | checking _ => .unbegun
  | checked _ _ => .unbegun
  | preparing _ => .begun
  | running _ _ => .begun
  | invalidating _ _ _ => .finished

/-- In this phase a synchronization decides whether it has something to do. -/
def SyncPhase.isChecked : SyncPhase → Bool
  | checked _ _ => true
  | _ => false

/-- How the log of its repository stands for a call. -/
def CheckoutCall.logStage : CheckoutCall → LogStage
  | sync s => s.phase.logStage
  | removal _ => .unbegun

/-- The log that a call has begun. -/
def CheckoutCall.logs? (k : CheckoutCall) : Option RepositoryKey :=
  if k.logStage = .unbegun then none else some k.key

theorem CheckoutCall.logs?_eq_some {k : CheckoutCall} {key : RepositoryKey} :
    k.logs? = some key ↔ k.logStage ≠ .unbegun ∧ k.key = key := by
  simp [logs?]

/-- What a call is about to have done, once it has begun its log. -/
def CheckoutCall.action? : CheckoutCall → Option SyncAction
  | sync ⟨_, .running _ run⟩ => some run.action
  | sync ⟨_, .invalidating _ action _⟩ => some action
  | _ => none

/-- A log that stands as it should. -/
def LogStage.Stands (l : ProgressLog) : LogStage → Prop
  | unbegun => True
  | begun => l.snapshot.complete = false
  | finished => l.snapshot.complete = true ∧ l.snapshot.failed = false

/-- What a turn of a synchronization does to logs when it goes on. -/
inductive LogStage.Moves (key : RepositoryKey) (b : ProgressBoard) :
    LogStage → LogStage → ProgressBoard → Prop
  | idle : Moves key b .unbegun .unbegun b
  | start : Moves key b .unbegun .begun (b.begin key)
  | stay : Moves key b .begun .begun b
  | append (text : String) : Moves key b .begun .begun (b.change key (·.append text))
  | finish : Moves key b .begun .finished (b.change key (·.finish false))

namespace LogStage

variable {key key' : RepositoryKey} {b b' : ProgressBoard} {g g' : LogStage}

theorem Moves.stands (h : Moves key b g g' b') (hs : g.Stands (b.log key)) :
    g'.Stands (b'.log key) := by
  cases h with
  | idle => trivial
  | start => rw [ProgressBoard.log_begin, if_pos rfl]; rfl
  | stay => exact hs
  | append text =>
    rw [ProgressBoard.log_change, if_pos rfl]
    simpa [Stands, ProgressLog.snapshot_append] using hs
  | finish => rw [ProgressBoard.log_change, if_pos rfl]; exact ⟨rfl, rfl⟩

/-- The logs of other repositories stay as they are. -/
theorem Moves.log_of_ne (h : Moves key b g g' b') (hkey : key' ≠ key) :
    b'.log key' = b.log key' := by
  cases h with
  | idle => rfl
  | start => rw [ProgressBoard.log_begin, if_neg hkey]
  | stay => rfl
  | append => rw [ProgressBoard.log_change, if_neg hkey]
  | finish => rw [ProgressBoard.log_change, if_neg hkey]

/-- Nothing happens to logs before the log is begun. -/
theorem Moves.board_eq (h : Moves key b g .unbegun b') : b' = b := by
  cases h
  rfl

/-- A turn leaves the log as it is, or begins it, or goes on with it. -/
theorem Moves.log_cases (h : Moves key b g g' b') :
    b'.log key = b.log key ∨
      (g = .unbegun ∧ g' = .begun ∧ b'.log key = (b.log key).reset) ∨
      (g = .begun ∧ (b.log key).Continues (b'.log key)) := by
  cases h with
  | idle => exact Or.inl rfl
  | start => exact Or.inr (Or.inl ⟨rfl, rfl, by rw [ProgressBoard.log_begin, if_pos rfl]⟩)
  | stay => exact Or.inl rfl
  | append text =>
    rw [ProgressBoard.log_change, if_pos rfl]
    exact Or.inr (Or.inr ⟨rfl, ProgressLog.continues_append _ text⟩)
  | finish =>
    rw [ProgressBoard.log_change, if_pos rfl]
    exact Or.inr (Or.inr ⟨rfl, ProgressLog.continues_finish _ false⟩)

end LogStage

/-- The log of work that failed, which ends with the error. -/
theorem Checkouts.log_logFailure (c : Checkouts) (key key' : RepositoryKey) (e : SyncError) :
    (c.logFailure key e).board.log key' =
      if key' = key then ((c.board.log key).append (e.message ++ "\n")).finish true
      else c.board.log key' :=
  c.board.log_change key key' _

/-! ### What calls do to logs -/

/-- A call has the slot of its folder for itself. -/
def CheckoutCall.IsWorking (k : CheckoutCall) : Prop :=
  ∃ a place, k.seat? = some a ∧ a.phase = some (.working place)

section Calls

variable {o : SyncOptions} {now : Nat} {c c' : Checkouts} {news : SyncNews} {k k' : CheckoutCall}
  {s s' : Synchronization} {x : SyncResult}

/-- What a synchronization does to logs when it goes on. -/
theorem Synchronization.Moves.logs (h : s.Moves o now c news s' c') :
    LogStage.Moves s.task.address.key c.board s.phase.logStage s'.phase.logStage c'.board := by
  cases h with
  | look => exact .idle
  | arrive => exact .idle
  | enter => exact .idle
  | check => exact .idle
  | pull => exact .start
  | prepare => exact .start
  | clone => exact .stay
  | build => exact .append _
  | tell => exact .finish

/-- What a synchronization does to logs when it comes to its end, which it does before it gives up
its slot. -/
theorem Synchronization.Returns.logs (h : s.Returns o now c news x c') :
    match s.phase.logStage with
    | .unbegun => c'.board = c.board
    | .begun => ∃ place e, s.place? = some place ∧ x = .error e ∧
        c' = (c.logFailure s.task.address.key e).concluded place x
    | .finished => ∃ place r, s.place? = some place ∧ x = .ok r ∧ c' = c.concluded place x := by
  cases h with
  | skip => rfl
  | share => rfl
  | find => rfl
  | unprepared => exact ⟨_, _, rfl, rfl, rfl⟩
  | fail => exact ⟨_, _, rfl, rfl, rfl⟩
  | told => exact ⟨_, _, rfl, rfl, rfl⟩

theorem Removal.Returns.board_eq {r : Removal} {x : Except SyncError Path}
    (h : r.Returns c news x c') : c'.board = c.board := by
  cases h <;> rfl

theorem CheckoutCall.Begins.logs (h : Begins o c k c') :
    k.logStage = .unbegun ∧ c'.board = c.board := by
  cases h with
  | look => exact ⟨rfl, rfl⟩
  | arrive => exact ⟨rfl, rfl⟩
  | remove => exact ⟨rfl, rfl⟩

theorem CheckoutCall.Moves.logs (h : Moves o now c k news k' c') :
    LogStage.Moves k.key c.board k.logStage k'.logStage c'.board := by
  cases h with
  | sync h => exact h.logs
  | removal h => cases h <;> exact .idle

/-- A synchronization that has begun its log has the slot for itself. -/
theorem CheckoutCall.isWorking_of_logStage (h : k.logStage ≠ .unbegun) : k.IsWorking := by
  match k with
  | .removal _ => exact absurd rfl h
  | .sync ⟨t, phase⟩ =>
    cases phase with
    | preparing place => exact ⟨_, place, rfl, rfl⟩
    | running place => exact ⟨_, place, rfl, rfl⟩
    | invalidating place => exact ⟨_, place, rfl, rfl⟩
    | _ => exact absurd rfl h

/-- A synchronization begins its log only while it has the slot for itself. -/
theorem CheckoutCall.Moves.isWorking (h : Moves o now c k news k' c')
    (hk' : k'.logStage ≠ .unbegun) : k.IsWorking := by
  cases h with
  | removal => exact absurd rfl hk'
  | sync h =>
    cases h with
    | pull => exact ⟨_, _, rfl, rfl⟩
    | prepare => exact ⟨_, _, rfl, rfl⟩
    | clone => exact ⟨_, _, rfl, rfl⟩
    | build => exact ⟨_, _, rfl, rfl⟩
    | tell => exact ⟨_, _, rfl, rfl⟩
    | _ => exact absurd rfl hk'

/-- Who does something has not skipped it. -/
theorem CheckoutCall.Moves.action_ne (h : Moves o now c k news k' c')
    (hk : k.action? ≠ some .skipped) : k'.action? ≠ some .skipped := by
  cases h with
  | removal => nofun
  | sync h =>
    cases h with
    | pull => nofun
    | clone => nofun
    | build => exact hk
    | tell => exact hk
    | _ => nofun

/-- A command is only run for a synchronization that has begun its log. -/
theorem CheckoutCall.logStage_of_wants {command : Command} {key : RepositoryKey}
    (h : k.wants = .command command key) : k.logStage = .begun ∧ k.key = key := by
  match k with
  | .removal ⟨_, _, phase⟩ => cases phase <;> simp [wants, Removal.wants] at h
  | .sync ⟨t, phase⟩ =>
    cases phase with
    | running place run =>
      obtain ⟨-, rfl⟩ : run.command = command ∧ t.address.key = key := by
        simpa [wants, Synchronization.wants] using h
      exact ⟨rfl, rfl⟩
    | _ => simp [wants, Synchronization.wants] at h

theorem CheckoutCall.drop_board (k : CheckoutCall) (c : Checkouts) :
    (k.drop c).board = c.board := by
  match k with
  | .sync ⟨t, phase⟩ => cases phase <;> rfl
  | .removal ⟨key, path, phase⟩ => cases phase <;> rfl

end Calls

/-! ### Calls and readers -/

/-- The checkouts with the calls on them, and the readers that wait for news; a reader is no more
there when it was shown a log. -/
structure LogWorld where
  calls : CheckoutWorld
  readers : List (Option ProgressWatch)

/-- What is seen of calls and readers. -/
inductive LogEvent where
  | call (e : CheckoutEvent)
  /-- The command that is being run for a call has written to its log. -/
  | wrote (call : Nat) (text : String)
  /-- A reader waits for news. -/
  | waits (watch : ProgressWatch)
  | shown (key : RepositoryKey) (snapshot : ProgressSnapshot)
  /-- A reader is given up. -/
  | left (reader : Nat)

/-- The call that does something. -/
def CheckoutEvent.by? : CheckoutEvent → Option Nat
  | began n _ => some n
  | moved n _ _ _ => some n
  | returned n _ _ _ => some n
  | dropped n _ => some n
  | printed n _ => some n
  | _ => none

/-- The call that does something, or whose command does. -/
def LogEvent.by? : LogEvent → Option Nat
  | call e => e.by?
  | wrote n _ => some n
  | _ => none

/-- A synchronization that has found something to do begins the log of its repository. -/
inductive LogEvent.Starts (n : Nat) (key : RepositoryKey) : LogEvent → Prop
  | intro {t : SyncTask} {place : PathLocks.Place} {present : Bool} {news : SyncNews}
      {k : CheckoutCall} (h : t.address.key = key) :
      Starts n key (.call (.moved n (.sync ⟨t, .checked place present⟩) news k))

/-- No synchronization is given up. -/
def CheckoutEvent.Keeps : CheckoutEvent → Prop
  | dropped _ (.sync _) => False
  | _ => True

instance (e : CheckoutEvent) : Decidable e.Keeps := by
  unfold CheckoutEvent.Keeps
  split <;> infer_instance

/-- How a synchronization stood that has returned an error, and the error. -/
def CheckoutEvent.failureOf? (n : Nat) : CheckoutEvent → Option (Synchronization × SyncError)
  | returned m (.sync s) _ (.synchronized (.error e)) => if m = n then some (s, e) else none
  | _ => none

theorem CheckoutEvent.failureOf?_eq_some {e : CheckoutEvent} {n : Nat} {s : Synchronization}
    {error : SyncError} (h : e.failureOf? n = some (s, error)) :
    ∃ news, e = .returned n (.sync s) news (.synchronized (.error error)) := by
  unfold failureOf? at h
  split at h
  · obtain ⟨rfl, hse⟩ := Option.ite_none_right_eq_some.mp h
    obtain ⟨rfl, rfl⟩ := Prod.mk.inj (Option.some.inj hse)
    exact ⟨_, rfl⟩
  · simp at h

namespace LogWorld

/-- Nothing has been asked of any checkout yet. -/
def start (fs : FileSystem) : LogWorld := ⟨.start fs, []⟩

/-- The log of a repository. -/
def log (w : LogWorld) (key : RepositoryKey) : ProgressLog := w.calls.checkouts.board.log key

/-- How calls, commands and readers take turns when no synchronization is given up. A command writes
what it likes to the log that it was given, as long as it is being run. -/
inductive Step (o : SyncOptions) (w : LogWorld) : LogEvent → LogWorld → Prop
  | act {e : CheckoutEvent} {v : CheckoutWorld} (h : w.calls.Step o e v) (hkeeps : e.Keeps) :
      Step o w (.call e) { w with calls := v }
  | write {n : Nat} {k : CheckoutCall} {command : Command} {key : RepositoryKey} (text : String)
      (hn : w.calls.Active n k) (hk : k.wants = .command command key) :
      Step o w (.wrote n text)
        { w with calls := { w.calls with
            checkouts := w.calls.checkouts.onLog key fun l ↦ l.append text } }
  | look (key : RepositoryKey) : Step o w (.shown key (w.log key).snapshot) w
  | wait {watch : ProgressWatch} (key : RepositoryKey) (limit : Nat)
      (h : ProgressWatch.start w.calls.checkouts.board key w.calls.now limit = .inl watch) :
      Step o w (.waits watch) { w with readers := w.readers ++ [some watch] }
  | know {snapshot : ProgressSnapshot} (key : RepositoryKey) (limit : Nat)
      (h : ProgressWatch.start w.calls.checkouts.board key w.calls.now limit = .inr snapshot) :
      Step o w (.shown key snapshot) w
  | show {n : Nat} {watch : ProgressWatch} {snapshot : ProgressSnapshot} {board : ProgressBoard}
      (hn : w.readers[n]? = some (some watch))
      (h : watch.turn w.calls.now w.calls.checkouts.board = .finished snapshot board) :
      Step o w (.shown watch.key snapshot)
        ⟨{ w.calls with checkouts := { w.calls.checkouts with board := board } },
          w.readers.set n none⟩
  | leave {n : Nat} {watch : ProgressWatch} (hn : w.readers[n]? = some (some watch)) :
      Step o w (.left n) { w with readers := w.readers.set n none }

variable {o : SyncOptions} {fs : FileSystem} {w w' : LogWorld} {events more : List LogEvent}
  {e : LogEvent} {m n : Nat} {k k' : CheckoutCall} {t : SyncTask} {phase : SyncPhase}
  {key : RepositoryKey} {s : Synchronization} {news : SyncNews} {x : SyncResult}

/-- A reader changes nothing. -/
theorem board_of_turn {watch : ProgressWatch} {now : Nat} {b b' : ProgressBoard}
    {snapshot : ProgressSnapshot} (h : watch.turn now b = .finished snapshot b') : b' = b := by
  simp only [ProgressWatch.turn] at h
  split at h
  · exact (Turn.finished.inj h).2.symm
  · simp at h

/-! ### What is known of logs -/

/-- What is known of calls and logs after some events. -/
structure Sound (o : SyncOptions) (events : List LogEvent) (w : LogWorld) : Prop where
  seated : LockWorld.Seated w.calls.checkouts.locks w.calls.seats
  path : ∀ n k, w.calls.Active n k → k.path = k.key.checkoutPath o.root
  stands : ∀ n k, w.calls.Active n k → k.logStage.Stands (w.log k.key)
  /-- A call has begun a log just when it is in one of the later phases. -/
  started : ∀ n k key, w.calls.Active n k →
    (k.logs? = some key ↔ ∃ e ∈ events, e.Starts n key)
  known : ∀ n key, ∀ e ∈ events, e.Starts n key → n < w.calls.calls.length
  acts : ∀ n k, w.calls.Active n k → k.action? ≠ some .skipped

/-- Of the calls on one repository only one is at its work. -/
theorem Sound.one_works (h : Sound o events w) (hm : w.calls.Active m k) (hn : w.calls.Active n k')
    (hk : k.IsWorking) (hk' : k'.IsWorking) (hkey : k.key = k'.key) : m = n := by
  obtain ⟨a, place, ha, hphase⟩ := hk
  obtain ⟨b, place', hb, hphase'⟩ := hk'
  have hpath : a.path.same b.path = true := by
    rw [CheckoutCall.seat?_path ha, CheckoutCall.seat?_path hb, h.path m k hm, h.path n k' hn, hkey]
    exact Path.same_refl _
  exact h.seated.one_works (hm.seats_eq.trans ha) (hn.seats_eq.trans hb) hphase hphase' hpath

/-- While a call at its work writes to the log of its repository, the logs of the others stand as
they should. -/
theorem Sound.stands_of_ne (h : Sound o events w) (hm : w.calls.Active m k)
    (hn : w.calls.Active n k') (hne : n ≠ m) (hk : k.IsWorking) {b : ProgressBoard}
    (hb : ∀ key, key ≠ k.key → b.log key = w.log key) : k'.logStage.Stands (b.log k'.key) := by
  by_cases hkey : k'.key = k.key
  · by_cases hstage : k'.logStage = .unbegun
    · rw [hstage]
      trivial
    · exact absurd (h.one_works hn hm (CheckoutCall.isWorking_of_logStage hstage) hk hkey) hne
  · rw [hb _ hkey]
    exact h.stands n k' hn

theorem starts_iff {k : CheckoutCall} :
    LogEvent.Starts n key (.call (.moved n (.sync s) news k)) ↔
      s.phase.isChecked = true ∧ s.task.address.key = key := by
  constructor
  · rintro ⟨hkey⟩
    exact ⟨rfl, hkey⟩
  · obtain ⟨t, phase⟩ := s
    rintro ⟨h, hkey⟩
    cases phase with
    | checked place present => exact .intro hkey
    | _ => simp [SyncPhase.isChecked] at h

/-- A call that goes on has begun a log when it had done so before or does so now. -/
theorem logs?_of_moves {o : SyncOptions} {now : Nat} {c c' : Checkouts}
    (h : k.Moves o now c news k' c') (n : Nat) (key : RepositoryKey) :
    k'.logs? = some key ↔
      k.logs? = some key ∨ LogEvent.Starts n key (.call (.moved n k news k')) := by
  simp only [CheckoutCall.logs?_eq_some, h.same.1]
  cases h with
  | removal h =>
    refine iff_of_false (fun hk ↦ hk.1 rfl) ?_
    rintro (⟨hbegun, -⟩ | hstarts)
    · exact hbegun rfl
    · cases hstarts
  | sync h =>
    rw [starts_iff, CheckoutCall.logStage, CheckoutCall.logStage, CheckoutCall.key]
    cases h <;> simp [SyncPhase.isChecked, SyncPhase.logStage, Synchronization.arrive,
      Synchronization.run]

/-- What a step leaves as it is for a call. -/
theorem Sound.started_concat (h : Sound o events w) (hn : w.calls.Active n k)
    (he : ¬e.Starts n key) : k.logs? = some key ↔ ∃ e' ∈ events ++ [e], e'.Starts n key := by
  rw [h.started n k key hn]
  simp [or_and_right, exists_or, he]

theorem sound_start (fs : FileSystem) : Sound o [] (start fs) where
  seated := LockWorld.seated_none
  path n k hn := by simp [start, CheckoutWorld.start, CheckoutWorld.Active] at hn
  stands n k hn := by simp [start, CheckoutWorld.start, CheckoutWorld.Active] at hn
  started n k key hn := by simp [start, CheckoutWorld.start, CheckoutWorld.Active] at hn
  known n key e he := by simp at he
  acts n k hn := by simp [start, CheckoutWorld.start, CheckoutWorld.Active] at hn

/-- Logs that change, but not those of calls that are under way, and calls that stay as they are. -/
theorem Sound.same (h : Sound o events w) (hcalls : w'.calls.calls = w.calls.calls)
    (hlocks : w'.calls.checkouts.locks = w.calls.checkouts.locks)
    (hstands : ∀ n k, w.calls.Active n k → k.logStage.Stands (w'.log k.key))
    (he : ∀ n key, ¬e.Starts n key) : Sound o (events ++ [e]) w' := by
  have hactive : ∀ n k, w'.calls.Active n k ↔ w.calls.Active n k := fun n k ↦ by
    rw [CheckoutWorld.Active, hcalls, CheckoutWorld.Active]
  refine ⟨?_, ?_, ?_, ?_, ?_, fun n k hn ↦ h.acts n k ((hactive n k).mp hn)⟩
  · have hseats : w'.calls.seats = w.calls.seats := by
      funext n
      rw [CheckoutWorld.seats, hcalls, CheckoutWorld.seats]
    rw [hlocks, hseats]
    exact h.seated
  · exact fun n k hn ↦ h.path n k ((hactive n k).mp hn)
  · exact fun n k hn ↦ hstands n k ((hactive n k).mp hn)
  · exact fun n k key hn ↦ h.started_concat ((hactive n k).mp hn) (he n key)
  · intro n key e' he' hstarts
    rw [hcalls]
    rcases List.mem_append.mp he' with he' | he'
    · exact h.known n key e' he' hstarts
    · obtain rfl := List.mem_singleton.mp he'
      exact absurd hstarts (he n key)

/-- What a command writes leaves all logs as they should stand. -/
theorem Sound.stands_of_write (h : Sound o events w) (hm : w.calls.Active m k) {command : Command}
    (hk : k.wants = .command command key) (text : String) (hn : w.calls.Active n k') :
    k'.logStage.Stands ((w.calls.checkouts.onLog key (·.append text)).board.log k'.key) := by
  obtain ⟨hstage, rfl⟩ := CheckoutCall.logStage_of_wants hk
  by_cases hne : n = m
  · subst hne
    obtain rfl : k = k' := by simpa [CheckoutWorld.Active] using hm.symm.trans hn
    have hmoves : LogStage.Moves k.key w.calls.checkouts.board .begun .begun _ := .append text
    have hstands := hmoves.stands (hstage ▸ h.stands n k hm)
    rwa [hstage]
  · exact h.stands_of_ne hm hn hne (CheckoutCall.isWorking_of_logStage (by simp [hstage]))
      fun key hkey ↦ by simp [Checkouts.onLog, ProgressBoard.log_change, hkey, log]

/-- When a call comes to its end, the logs of the others stand as they should. -/
theorem Sound.stands_of_returns (h : Sound o events w) (hm : w.calls.Active m k)
    {c' : Checkouts} {r : CheckoutReport} {now : Nat}
    (hreturns : k.Returns o now w.calls.checkouts news r c') (hn : w.calls.Active n k')
    (hne : n ≠ m) : k'.logStage.Stands (c'.board.log k'.key) := by
  cases hreturns with
  | removal hreturns =>
    rw [hreturns.board_eq]
    exact h.stands n k' hn
  | @sync s news x c' hreturns =>
    have hlogs := hreturns.logs
    split at hlogs
    · rw [hlogs]
      exact h.stands n k' hn
    · rename_i hstage
      obtain ⟨place, e, -, -, rfl⟩ := hlogs
      have hwork : (CheckoutCall.sync s).IsWorking :=
        CheckoutCall.isWorking_of_logStage (by simp [CheckoutCall.logStage, hstage])
      refine h.stands_of_ne hm hn hne hwork fun key hkey ↦ ?_
      exact (Checkouts.log_logFailure ..).trans (if_neg hkey)
    · obtain ⟨place, r, -, -, rfl⟩ := hlogs
      exact h.stands n k' hn

/-- A call begins. -/
theorem Sound.begin (h : Sound o events w) {c : Checkouts}
    (hbegins : k.Begins o w.calls.checkouts c) :
    Sound o (events ++ [.call (.began w.calls.calls.length k)])
      { w with calls := { w.calls with checkouts := c, calls := w.calls.calls ++ [some k] } } where
  seated := by
    rw [CheckoutWorld.seats_concat]
    exact hbegins.seated h.seated (by simp [CheckoutWorld.seats])
  path n k' hn := by
    rcases getElem?_concat_eq_some.mp hn with hn | ⟨-, hk⟩
    · exact h.path n k' hn
    · obtain rfl := Option.some.inj hk
      exact hbegins.path_eq
  stands n k' hn := by
    obtain ⟨hstage, hboard⟩ := hbegins.logs
    rcases getElem?_concat_eq_some.mp hn with hn | ⟨-, hk⟩
    · rw [log, hboard]
      exact h.stands n k' hn
    · obtain rfl := Option.some.inj hk
      rw [hstage]
      trivial
  started n k' key hn := by
    rcases getElem?_concat_eq_some.mp hn with hn | ⟨rfl, hk⟩
    · exact h.started_concat hn (by rintro ⟨⟩)
    · obtain rfl := Option.some.inj hk
      refine iff_of_false (by simp [CheckoutCall.logs?, hbegins.logs.1]) ?_
      rintro ⟨e, he, hstarts⟩
      rcases List.mem_append.mp he with he | he
      · exact absurd (h.known _ key e he hstarts) (Nat.lt_irrefl _)
      · obtain rfl := List.mem_singleton.mp he
        cases hstarts
  known n key e he hstarts := by
    rcases List.mem_append.mp he with he | he
    · have := h.known n key e he hstarts
      simp only [List.length_append, List.length_singleton]
      omega
    · obtain rfl := List.mem_singleton.mp he
      cases hstarts
  acts n k' hn := by
    rcases getElem?_concat_eq_some.mp hn with hn | ⟨-, hk⟩
    · exact h.acts n k' hn
    · obtain rfl := Option.some.inj hk
      cases hbegins <;> rintro ⟨⟩

/-- A call goes on. -/
theorem Sound.turn (h : Sound o events w) (hm : w.calls.Active m k) {now : Nat} {c : Checkouts}
    (hmoves : k.Moves o now w.calls.checkouts news k' c) :
    Sound o (events ++ [.call (.moved m k news k')])
      { w with calls := w.calls.put m (some k') c } where
  seated := by
    rw [CheckoutWorld.seats_put hm]
    exact hmoves.seated h.seated hm.seats_eq
  path n k₁ hn := by
    rcases (CheckoutWorld.active_put hm).mp hn with ⟨-, hk⟩ | ⟨-, hn⟩
    · obtain rfl := Option.some.inj hk
      rw [hmoves.same.1, hmoves.same.2]
      exact h.path m k hm
    · exact h.path n k₁ hn
  stands n k₁ hn := by
    rcases (CheckoutWorld.active_put hm).mp hn with ⟨rfl, hk⟩ | ⟨hne, hn⟩
    · obtain rfl := Option.some.inj hk
      rw [hmoves.same.1]
      exact hmoves.logs.stands (h.stands n k hm)
    · by_cases hstage : k'.logStage = .unbegun
      · have hlogs := hmoves.logs
        rw [hstage] at hlogs
        have hstands := h.stands n k₁ hn
        rwa [log, ← hlogs.board_eq] at hstands
      · exact h.stands_of_ne hm hn hne (hmoves.isWorking hstage) fun key ↦ hmoves.logs.log_of_ne
  started n k₁ key hn := by
    rcases (CheckoutWorld.active_put hm).mp hn with ⟨rfl, hk⟩ | ⟨hne, hn⟩
    · obtain rfl := Option.some.inj hk
      rw [logs?_of_moves hmoves n, h.started n k key hm]
      simp [or_and_right, exists_or]
    · refine h.started_concat hn ?_
      rintro ⟨-⟩
      exact hne rfl
  known n key e he hstarts := by
    simp only [CheckoutWorld.put, List.length_set]
    rcases List.mem_append.mp he with he | he
    · exact h.known n key e he hstarts
    · obtain rfl := List.mem_singleton.mp he
      cases hstarts
      exact (List.getElem?_eq_some_iff.mp hm).1
  acts n k₁ hn := by
    rcases (CheckoutWorld.active_put hm).mp hn with ⟨-, hk⟩ | ⟨-, hn⟩
    · obtain rfl := Option.some.inj hk
      exact hmoves.action_ne (h.acts m k hm)
    · exact h.acts n k₁ hn

/-- A call is over. -/
theorem Sound.stop (h : Sound o events w) (hm : w.calls.Active m k) {c : Checkouts}
    (hseated : LockWorld.Seated c.locks (Function.update w.calls.seats m none))
    (hstands : ∀ n k', n ≠ m → w.calls.Active n k' → k'.logStage.Stands (c.board.log k'.key))
    (he : ∀ n key, ¬e.Starts n key) :
    Sound o (events ++ [e]) { w with calls := w.calls.put m none c } where
  seated := by
    rw [CheckoutWorld.seats_put hm]
    exact hseated
  path n k' hn := by
    obtain ⟨-, hk⟩ | ⟨-, hn⟩ := (CheckoutWorld.active_put hm).mp hn
    · simp at hk
    · exact h.path n k' hn
  stands n k' hn := by
    obtain ⟨-, hk⟩ | ⟨hne, hn⟩ := (CheckoutWorld.active_put hm).mp hn
    · simp at hk
    · exact hstands n k' hne hn
  started n k' key hn := by
    obtain ⟨-, hk⟩ | ⟨-, hn⟩ := (CheckoutWorld.active_put hm).mp hn
    · simp at hk
    · exact h.started_concat hn (he n key)
  known n key e' he' hstarts := by
    simp only [CheckoutWorld.put, List.length_set]
    rcases List.mem_append.mp he' with he' | he'
    · exact h.known n key e' he' hstarts
    · obtain rfl := List.mem_singleton.mp he'
      exact absurd hstarts (he n key)
  acts n k' hn := by
    obtain ⟨-, hk⟩ | ⟨-, hn⟩ := (CheckoutWorld.active_put hm).mp hn
    · simp at hk
    · exact h.acts n k' hn

/-- What is known of calls and logs is known after every step. -/
theorem Sound.step (h : Sound o events w) (hstep : Step o w e w') :
    Sound o (events ++ [e]) w' := by
  cases hstep with
  | act hact hkeeps =>
    cases hact with
    | begin order hbegin => exact h.begin (CheckoutCall.begins_of_begin hbegin)
    | turn news hn hnews hturn => exact h.turn hn (CheckoutCall.moves_of_turn hturn)
    | finish news hn hnews hturn =>
      have hreturns := CheckoutCall.returns_of_turn hturn
      refine h.stop hn (hreturns.seated h.seated hn.seats_eq) ?_ nofun
      exact fun n k' hne hn' ↦ h.stands_of_returns hn hreturns hn' hne
    | @drop n k hn =>
      refine h.stop hn (CheckoutCall.seated_drop h.seated hn.seats_eq) ?_ nofun
      intro m k' hne hm
      rw [k.drop_board]
      exact h.stands m k' hm
    | refuse order hbegin =>
      obtain rfl := CheckoutCall.checkouts_eq_of_refused hbegin
      exact h.same rfl rfl h.stands nofun
    | print text hn hk => exact h.same rfl rfl (fun m k' hm ↦ h.stands_of_write hn hk _ hm) nofun
    | change fs => exact h.same rfl rfl h.stands nofun
    | pass time => exact h.same rfl rfl h.stands nofun
  | write text hn hk => exact h.same rfl rfl (fun m k' hm ↦ h.stands_of_write hn hk text hm) nofun
  | look key => exact h.same rfl rfl h.stands nofun
  | wait key limit hwait => exact h.same rfl rfl h.stands nofun
  | know key limit hknow => exact h.same rfl rfl h.stands nofun
  | «show» hn hturn =>
    obtain rfl := board_of_turn hturn
    exact h.same rfl rfl h.stands nofun
  | leave hn => exact h.same rfl rfl h.stands nofun

theorem sound_of_run (h : Run (Step o) (start fs) events w) : Sound o events w :=
  h.invariant (P := Sound o) (sound_start fs) fun _ _ _ _ _ hsound hstep ↦ hsound.step hstep

/-- A call that is under way and has begun the log of a repository. -/
def Writes (events : List LogEvent) (w : LogWorld) (n : Nat) (key : RepositoryKey) : Prop :=
  (∃ k, w.calls.Active n k) ∧ ∃ e ∈ events, e.Starts n key

theorem Sound.writes_iff (h : Sound o events w) :
    w.Writes events n key ↔ ∃ k, w.calls.Active n k ∧ k.logs? = some key := by
  constructor
  · rintro ⟨⟨k, hn⟩, hstarts⟩
    exact ⟨k, hn, (h.started n k key hn).mpr hstarts⟩
  · rintro ⟨k, hn, hlogs⟩
    exact ⟨⟨k, hn⟩, (h.started n k key hn).mp hlogs⟩

/-- Nobody else has begun the log of a repository. -/
theorem Sound.writes_unique (h : Sound o events w) (hm : w.Writes events m key)
    (hn : w.Writes events n key) : m = n := by
  obtain ⟨k, hm, hk⟩ := h.writes_iff.mp hm
  obtain ⟨k', hn, hk'⟩ := h.writes_iff.mp hn
  rw [CheckoutCall.logs?_eq_some] at hk hk'
  exact h.one_works hm hn (CheckoutCall.isWorking_of_logStage hk.1)
    (CheckoutCall.isWorking_of_logStage hk'.1) (hk.2.trans hk'.2.symm)

/-- A step begins the log of a repository, or its writer goes on with it. -/
def Touches (events : List LogEvent) (w : LogWorld) (e : LogEvent) (w' : LogWorld)
    (key : RepositoryKey) : Prop :=
  ∃ n, e.by? = some n ∧ ((e.Starts n key ∧ w'.log key = (w.log key).reset) ∨
    (w.Writes events n key ∧ (w.log key).snapshot.complete = false ∧
      (w.log key).Continues (w'.log key)))

/-- A call that has begun its log and has not finished it may go on with it. -/
theorem Sound.touches_of_begun (h : Sound o events w) (hn : w.calls.Active n k)
    (hstage : k.logStage = .begun) (hby : e.by? = some n)
    (hlog : (w.log k.key).Continues (w'.log k.key)) : w.Touches events e w' k.key := by
  have hlogs : k.logs? = some k.key := CheckoutCall.logs?_eq_some.mpr ⟨by simp [hstage], rfl⟩
  have hstands := h.stands n k hn
  rw [hstage] at hstands
  exact ⟨n, hby, Or.inr ⟨h.writes_iff.mpr ⟨k, hn, hlogs⟩, hstands, hlog⟩⟩

theorem Sound.log_of_write (h : Sound o events w) (hn : w.calls.Active n k) {command : Command}
    {key' : RepositoryKey} (hk : k.wants = .command command key') (text : String)
    (hby : e.by? = some n)
    (hw' : w'.calls.checkouts = w.calls.checkouts.onLog key' (·.append text)) :
    w'.log key = w.log key ∨ w.Touches events e w' key := by
  obtain ⟨hstage, rfl⟩ := CheckoutCall.logStage_of_wants hk
  have hlog : w'.log key =
      if key = k.key then (w.log k.key).append text else w.log key := by
    rw [log, hw']
    exact ProgressBoard.log_change ..
  by_cases hkey : key = k.key
  · subst hkey
    rw [if_pos rfl] at hlog
    exact Or.inr (h.touches_of_begun hn hstage hby (hlog ▸ ProgressLog.continues_append _ text))
  · exact Or.inl (hlog.trans (if_neg hkey))

theorem Sound.log_of_moves (h : Sound o events w) (hn : w.calls.Active n k) {now : Nat}
    (hmoves : k.Moves o now w.calls.checkouts news k' w'.calls.checkouts) :
    w'.log key = w.log key ∨ w.Touches events (.call (.moved n k news k')) w' key := by
  by_cases hkey : key = k.key
  · subst hkey
    rcases hmoves.logs.log_cases with hsame | ⟨hstage, hstage', hreset⟩ | ⟨hstage, hcontinues⟩
    · exact Or.inl hsame
    · have hlogs : k'.logs? = some k.key :=
        CheckoutCall.logs?_eq_some.mpr ⟨by simp [hstage'], hmoves.same.1⟩
      have hstarts := ((logs?_of_moves hmoves n k.key).mp hlogs).resolve_left
        (by simp [CheckoutCall.logs?, hstage])
      exact Or.inr ⟨n, rfl, Or.inl ⟨hstarts, hreset⟩⟩
    · exact Or.inr (h.touches_of_begun hn hstage rfl hcontinues)
  · exact Or.inl (hmoves.logs.log_of_ne hkey)

theorem Sound.log_of_returns (h : Sound o events w) (hn : w.calls.Active n k) {now : Nat}
    {r : CheckoutReport} (hreturns : k.Returns o now w.calls.checkouts news r w'.calls.checkouts) :
    w'.log key = w.log key ∨ w.Touches events (.call (.returned n k news r)) w' key := by
  cases hreturns with
  | removal hreturns =>
    exact Or.inl (congrArg (·.log key) hreturns.board_eq)
  | @sync s news x c hreturns =>
    have hlogs := hreturns.logs
    split at hlogs
    · exact Or.inl (congrArg (·.log key) hlogs)
    · rename_i hstage
      obtain ⟨place, e, -, -, hw'⟩ := hlogs
      have hlog := Checkouts.log_logFailure w.calls.checkouts s.task.address.key key e
      rw [show (w.calls.checkouts.logFailure _ e).board = w'.calls.checkouts.board by rw [hw']; rfl]
        at hlog
      by_cases hkey : key = s.task.address.key
      · subst hkey
        rw [if_pos rfl] at hlog
        refine Or.inr (h.touches_of_begun hn hstage rfl ?_)
        change (w.log s.task.address.key).Continues
          (w'.calls.checkouts.board.log s.task.address.key)
        rw [hlog]
        exact (ProgressLog.continues_append _ _).trans (ProgressLog.continues_finish _ true)
      · exact Or.inl (hlog.trans (if_neg hkey))
    · obtain ⟨place, r, -, -, hw'⟩ := hlogs
      exact Or.inl (by rw [log, hw']; rfl)

/-- A step leaves the log of a repository as it is, or begins it, or its writer goes on with it. -/
theorem Sound.log_of_step (h : Sound o events w) (hstep : Step o w e w') (key : RepositoryKey) :
    w'.log key = w.log key ∨ w.Touches events e w' key := by
  cases hstep with
  | act hact hkeeps =>
    cases hact with
    | begin order hbegin =>
      exact Or.inl (congrArg (·.log key) (CheckoutCall.begins_of_begin hbegin).logs.2)
    | refuse order hbegin =>
      exact Or.inl (congrArg (·.board.log key) (CheckoutCall.checkouts_eq_of_refused hbegin))
    | turn news hn hnews hturn => exact h.log_of_moves hn (CheckoutCall.moves_of_turn hturn)
    | finish news hn hnews hturn => exact h.log_of_returns hn (CheckoutCall.returns_of_turn hturn)
    | drop hn => exact Or.inl (congrArg (·.log key) (CheckoutCall.drop_board ..))
    | print text hn hk => exact h.log_of_write hn hk _ rfl rfl
    | change fs => exact Or.inl rfl
    | pass time => exact Or.inl rfl
  | write text hn hk => exact h.log_of_write hn hk text rfl rfl
  | look => exact Or.inl rfl
  | wait => exact Or.inl rfl
  | know => exact Or.inl rfl
  | «show» hn hturn => exact Or.inl (congrArg (·.log key) (board_of_turn hturn))
  | leave => exact Or.inl rfl

/-- Until the log is begun again it only grows, and nothing happens to it once it is complete. -/
theorem Sound.log_of_run (h : Sound o events w) (hrun : Run (Step o) w more w')
    (hmore : ∀ e ∈ more, ∀ n, ¬e.Starts n key) :
    (w.log key).Continues (w'.log key) ∧
      ((w.log key).snapshot.complete = true → w'.log key = w.log key) := by
  suffices Sound o (events ++ more) w' ∧ ((w.log key).Continues (w'.log key) ∧
      ((w.log key).snapshot.complete = true → w'.log key = w.log key)) from this.2
  induction hrun with
  | nil => exact ⟨by simpa using h, ProgressLog.continues_refl _, fun _ ↦ rfl⟩
  | @snoc more e u v hrun hstep ih =>
    obtain ⟨hsound, hcontinues, hsame⟩ := ih fun e he ↦ hmore e (List.mem_append_left _ he)
    refine ⟨by simpa using hsound.step hstep, ?_⟩
    rcases hsound.log_of_step hstep key with hlog | ⟨n, -, ⟨hstarts, -⟩ | ⟨-, hopen, hgrows⟩⟩
    · rw [hlog]
      exact ⟨hcontinues, hsame⟩
    · exact absurd hstarts (hmore e (by simp) n)
    · refine ⟨hcontinues.trans hgrows, fun hcomplete ↦ ?_⟩
      rw [hsame hcomplete, hcomplete] at hopen
      exact absurd hopen (by simp)

/-- The log of work that is over is complete before the slot is given up, and tells how it ended. -/
theorem Sound.tells_of_step (h : Sound o events w)
    (hstep : Step o w (.call (.returned n (.sync s) news (.synchronized x))) w')
    (hwrites : w.Writes events n key) :
    ∃ (place : PathLocks.Place) (c : Checkouts), s.place? = some place ∧ c.locks = w.calls.checkouts.locks ∧
      w'.calls.checkouts = c.concluded place x ∧ (c.board.log key).Tells x := by
  obtain ⟨k, hk, hlogs⟩ := h.writes_iff.mp hwrites
  cases hstep with
  | act hact hkeeps =>
    cases hact with
    | finish _ hn hnews hturn =>
      obtain rfl : k = .sync s := by simpa [CheckoutWorld.Active] using hk.symm.trans hn
      obtain ⟨hstage, rfl⟩ := CheckoutCall.logs?_eq_some.mp hlogs
      cases CheckoutCall.returns_of_turn hturn with
      | sync hreturns =>
        have hends := hreturns.logs
        split at hends
        · rename_i hunbegun
          exact absurd hunbegun hstage
        · obtain ⟨place, e, hplace, rfl, hc⟩ := hends
          refine ⟨place, w.calls.checkouts.logFailure s.task.address.key e, hplace, rfl, hc, ?_⟩
          rw [Checkouts.log_logFailure, CheckoutCall.key, if_pos rfl]
          refine ⟨rfl, by simp [ProgressLog.finish, ProgressLog.changed], ?_⟩
          rintro e' ⟨rfl⟩
          exact ⟨_, congrArg ProgressSnapshot.text (ProgressLog.snapshot_append ..)⟩
        · rename_i hfinished
          obtain ⟨place, r, hplace, rfl, hc⟩ := hends
          have hstands := h.stands n _ hn
          rw [CheckoutCall.logStage, hfinished] at hstands
          have hfailed : (w.log s.task.address.key).snapshot.failed = false := hstands.2
          exact ⟨place, w.calls.checkouts, hplace, rfl, hc, hstands.1,
            iff_of_false (fun htrue ↦ Bool.false_ne_true (hfailed.symm.trans htrue)) nofun, nofun⟩

/-- A log that is begun is empty. -/
theorem log_of_starts (hstep : Step o w e w') (hstarts : e.Starts n key) :
    (w'.log key).snapshot = .empty := by
  obtain ⟨rfl⟩ := hstarts
  cases hstep with
  | act hact hkeeps =>
    cases hact with
    | turn _ hn hnews hturn =>
      cases CheckoutCall.moves_of_turn hturn with
      | sync hmoves =>
        have hbegin : ∀ b : ProgressBoard, ∀ key, ((b.begin key).log key).snapshot = .empty := by
          intro b key
          rw [ProgressBoard.log_begin, if_pos rfl]
          rfl
        cases hmoves with
        | pull => exact hbegin _ _
        | prepare => exact hbegin _ _

/-- A call that does not begin a log writes to none. -/
theorem board_of_quiet (hrun : Run (Step o) (start fs) events w)
    (hquiet : ∀ e ∈ events, ∀ key, ¬e.Starts n key) (hstep : Step o w e w') (hby : e.by? = some n)
    (he : ∀ key, ¬e.Starts n key) : w'.log = w.log := by
  funext key
  rcases (sound_of_run hrun).log_of_step hstep key with
    hlog | ⟨m, hm, ⟨hstarts, -⟩ | ⟨⟨-, e', he', hstarts⟩, -⟩⟩
  · exact hlog
  · obtain rfl := Option.some.inj (hby.symm.trans hm)
    exact absurd hstarts (he key)
  · obtain rfl := Option.some.inj (hby.symm.trans hm)
    exact absurd hstarts (hquiet e' he' key)

/-- A synchronization that has nothing to do, or shares an outcome, has begun no log. -/
theorem Sound.quiet_of_step (h : Sound o events w)
    (hstep : Step o w (.call (.returned n (.sync s) news (.synchronized x))) w')
    (hidle : (∃ r, x = .ok r ∧ r.action = .skipped) ∨ ∃ place, s.phase = .waiting place) :
    ∀ e ∈ events, ∀ key, ¬e.Starts n key := by
  intro e he key hstarts
  cases hstep with
  | act hact hkeeps =>
    cases hact with
    | finish _ hn hnews hturn =>
      have hlogs := (h.started n _ key hn).mpr ⟨e, he, hstarts⟩
      have hstage := (CheckoutCall.logs?_eq_some.mp hlogs).1
      cases CheckoutCall.returns_of_turn hturn with
      | sync hreturns =>
        cases hreturns with
        | skip => exact hstage rfl
        | share => exact hstage rfl
        | find => exact hstage rfl
        | unprepared => simp at hidle
        | fail => simp at hidle
        | told =>
          obtain ⟨r, hr, haction⟩ | ⟨place, hplace⟩ := hidle
          · obtain rfl := Except.ok.inj hr
            exact h.acts n _ hn (congrArg some haction)
          · simp at hplace

/-- Whatever calls, commands and readers do, as long as no synchronization is given up: a log has one
writer at a time, and only the writer goes on with it, or the synchronization that begins it; a log
that is begun is empty, and until it is begun again it only grows, and stays as it is once it is
complete; when the work of a synchronization that has begun its log ends, the log is complete before
the slot is given up, says that it failed just when the result is an error, and then ends with the
error; and a call that is refused, that has nothing to do or that shares an outcome writes to no
log. -/
theorem logs_of_run (h : Run (Step o) (start fs) events w) :
    (∀ m n key, w.Writes events m key → w.Writes events n key → m = n) ∧
    (∀ e w' key, Step o w e w' → w'.log key ≠ w.log key →
      ∃ n, e.by? = some n ∧ (w.Writes events n key ∨ e.Starts n key)) ∧
    (∀ e w' n key, Step o w e w' → e.Starts n key → (w'.log key).snapshot = .empty) ∧
    (∀ more w' key, Run (Step o) w more w' → (∀ e ∈ more, ∀ n, ¬e.Starts n key) →
      (w.log key).Continues (w'.log key) ∧
        ((w.log key).snapshot.complete = true → w'.log key = w.log key)) ∧
    (∀ n s news x w' key, Step o w (.call (.returned n (.sync s) news (.synchronized x))) w' →
      w.Writes events n key →
      ∃ (place : PathLocks.Place) (c : Checkouts), s.place? = some place ∧
        c.locks = w.calls.checkouts.locks ∧ w'.calls.checkouts = c.concluded place x ∧
        (c.board.log key).Tells x) ∧
    (∀ r w', Step o w (.call (.refused r)) w' → w'.log = w.log) ∧
    ∀ n s news x w', Step o w (.call (.returned n (.sync s) news (.synchronized x))) w' →
      ((∃ r, x = .ok r ∧ r.action = .skipped) ∨ ∃ place, s.phase = .waiting place) →
      w'.log = w.log ∧ ∀ before e after u v, events = before ++ e :: after →
        Run (Step o) (start fs) before u → Step o u e v → e.by? = some n → v.log = u.log := by
  have hsound := sound_of_run h
  refine ⟨fun m n key ↦ hsound.writes_unique, ?_, fun e w' n key ↦ log_of_starts, fun more w' key ↦ hsound.log_of_run,
    fun n s news x w' key ↦ hsound.tells_of_step, ?_, ?_⟩
  · intro e w' key hstep hchange
    rcases hsound.log_of_step hstep key with hsame | ⟨n, hby, ⟨hstarts, -⟩ | ⟨hwrites, -⟩⟩
    · exact absurd hsame hchange
    · exact ⟨n, hby, Or.inr hstarts⟩
    · exact ⟨n, hby, Or.inl hwrites⟩
  · intro r w' hstep
    cases hstep with
    | act hact hkeeps =>
      cases hact with
      | refuse order hbegin =>
        obtain rfl := CheckoutCall.checkouts_eq_of_refused hbegin
        rfl
  · intro n s news x w' hstep hidle
    have hquiet := hsound.quiet_of_step hstep hidle
    refine ⟨board_of_quiet h hquiet hstep rfl nofun, ?_⟩
    rintro before e after u v rfl hbefore hu hby
    exact board_of_quiet hbefore (fun e' he' ↦ hquiet e' (List.mem_append_left _ he')) hu hby
      (hquiet e (by simp))

/-- Calls that nobody watches. -/
theorem run_of_calls {v : CheckoutWorld} {calls : List CheckoutEvent}
    (h : Run (fun u e v ↦ CheckoutWorld.Step o u e v ∧ e.Keeps) (.start fs) calls v) :
    Run (Step o) (start fs) (calls.map .call) ⟨v, []⟩ := by
  induction h with
  | nil => exact .nil
  | snoc _ hstep ih =>
    rw [List.map_append]
    exact ih.snoc (.act hstep.1 hstep.2)

/-- A synchronization for which git could not be run leaves a log that ends with the error. -/
theorem log_of_failed_clone : ∃ events w w' s news e key,
    Run (Step .plain) (start .empty) events w ∧
      Step .plain w (.call (.returned 0 (.sync s) news (.synchronized (.error e)))) w' ∧
      w.Writes events 0 key ∧ ∃ (place : PathLocks.Place) (c : Checkouts), s.place? = some place ∧
        c.locks = w.calls.checkouts.locks ∧ w'.calls.checkouts = c.concluded place (.error e) ∧
        (c.board.log key).Tells (.error e) := by
  have hplay : (((CheckoutWorld.start .empty).play .plain fun _ e _ ↦ e.Keeps)
      [.call (.synchronize "https://github.com/o/r" false none), .go 0 .nothing, .go 0 .nothing,
        .go 0 .nothing, .go 0 .nothing, .go 0 .nothing, .go 0 .nothing]).any (fun x ↦
      (x.2.move .plain (.go 0 (.ended (.error "no git")))).any fun y ↦
        (y.1.failureOf? 0).any fun z ↦ z.1.phase.logStage = .begun) = true := by
    decide +kernel
  obtain ⟨⟨calls, v⟩, hplay, hlast⟩ := (Option.any_eq_true ..).mp hplay
  obtain ⟨⟨e, v'⟩, hmove, hfailure⟩ := (Option.any_eq_true ..).mp hlast
  obtain ⟨⟨s, error⟩, hreturn, hstage⟩ := (Option.any_eq_true ..).mp hfailure
  obtain ⟨news, rfl⟩ := CheckoutEvent.failureOf?_eq_some hreturn
  have hrun := run_of_calls (CheckoutWorld.run_of_play hplay)
  have hact := CheckoutWorld.step_of_move hmove
  have hstep : Step .plain ⟨v, []⟩ (.call _) ⟨v', []⟩ := .act hact trivial
  have hwrites : Writes (calls.map .call) ⟨v, []⟩ 0 s.task.address.key := by
    cases hact with
    | finish _ hn =>
      refine (sound_of_run hrun).writes_iff.mpr ⟨_, hn, CheckoutCall.logs?_eq_some.mpr ⟨?_, rfl⟩⟩
      simp [CheckoutCall.logStage, of_decide_eq_true hstage]
  obtain ⟨-, -, -, -, htells, -⟩ := logs_of_run hrun
  exact ⟨_, _, _, s, news, error, _, hrun, hstep, hwrites, htells 0 s news _ _ _ hstep hwrites⟩

end LogWorld

end CodeNav
