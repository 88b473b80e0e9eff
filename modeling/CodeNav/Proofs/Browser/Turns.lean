import CodeNav.Browser.Service
import CodeNav.Proofs.Server.Evictions

/-!
# Turns of handlers

Most of what handlers do is nothing to sessions: a handler that looks at a checkout, that waits for news in
a log, or that changes the settings leaves sessions alone for the rest of its time. This is shown here once
for all that is to be said of sessions. Giving up a handler gives up calls on sessions.

## Main definitions

* `Handler.Comes`: where a turn of a handler leads, if it leads anywhere
* `HandlerPhase.Idle`: a handler that is busy with neither sessions nor checkouts that change
* `HandlerPhase.Idles`: a handler has left sessions alone, and is idle

## Main statements

* `Handler.turn_eq_moved`, `Handler.turn_eq_finished`: a turn of a handler is one of its phase
* `Handler.idles_phaseTurn`: a handler that is idle leaves sessions alone
* `Handler.drop_induction`: giving up a handler gives up calls one by one
-/

namespace CodeNav

namespace HandlerPhase

/-- A handler that is busy with neither sessions nor checkouts that change, and has none of them before it. -/
def Idle : HandlerPhase → Prop
  | inspecting _ => True
  | watching _ => True
  | locating _ => True
  | saving _ _ => True
  | _ => False

/-- A handler has left sessions alone, and is idle. -/
structure Idles (r : Sessions) (after : Option HandlerPhase) (s' : ServiceState) : Prop where
  sessions : s'.sessions = r
  idle : ∀ p, after = some p → p.Idle

end HandlerPhase

namespace Handler

open HandlerPhase (Idle Idles)

variable {v : Service} {now strand : Nat} {news : HandlerNews} {name : String} {request : Request}
  {m : PageMessage} {r : Sessions} {s s' : ServiceState} {h h' : Handler} {p : HandlerPhase} {reply : Reply}

/-! ### Turns and phases -/

/-- A handler that goes on. -/
theorem turn_eq_moved (hturn : h.turn v now strand news s = .moved h' s') :
    ∃ phase, phaseTurn v now strand news h.message h.phase s = .moved phase s' ∧
      h' = { h with phase := phase } := by
  rcases Turn.map_eq_moved.mp hturn with ⟨phase, hphase, rfl⟩ | ⟨_, _, -, hend⟩
  · exact ⟨phase, hphase, rfl⟩
  · cases hend

/-- A handler that is over. -/
theorem turn_eq_finished (hturn : h.turn v now strand news s = .finished reply s') :
    ∃ unaddressed, phaseTurn v now strand news h.message h.phase s = .finished unaddressed s' ∧
      reply = unaddressed.addressed h.message.tab h.message.repeatedInfo := by
  obtain ⟨unaddressed, s₁, hphase, hend⟩ := Turn.map_eq_finished.mp hturn
  obtain ⟨rfl, rfl⟩ := Turn.finished.inj hend
  exact ⟨unaddressed, hphase, rfl⟩

/-- Where a turn of a handler leads, if it leads anywhere. -/
inductive Comes (P : Option HandlerPhase → ServiceState → Prop) : HandlerTurn → Prop
  | parked {until? : Option Nat} : Comes P (.parked until?)
  | moved {p : HandlerPhase} {s : ServiceState} (h : P (some p) s) : Comes P (.moved p s)
  | finished {reply : Reply} {s : ServiceState} (h : P none s) : Comes P (.finished reply s)

theorem Comes.imp {P Q : Option HandlerPhase → ServiceState → Prop} {turn : HandlerTurn}
    (h : Comes P turn) (himp : ∀ after s', P after s' → Q after s') : Comes Q turn := by
  cases h with
  | parked => exact .parked
  | moved h => exact .moved (himp _ _ h)
  | finished h => exact .finished (himp _ _ h)

/-! ### Turns that leave sessions alone -/

theorem idles_finished (hs : s.sessions = r) : Comes (Idles r) (.finished reply s) :=
  .finished ⟨hs, fun _ heq ↦ (by cases heq)⟩

theorem idles_moved (hs : s.sessions = r) (hp : p.Idle) : Comes (Idles r) (.moved p s) :=
  .moved ⟨hs, fun _ heq ↦ Option.some.inj heq ▸ hp⟩

theorem idles_inspect (url : String) (hs : s.sessions = r) :
    Comes (Idles r) (inspect v name url s) := by
  delta inspect
  split
  · exact idles_finished hs
  · exact idles_moved hs True.intro

theorem idles_watch (a : ProgressArgs) (s : ServiceState) :
    Comes (Idles s.sessions) (watch v now name a s) := by
  simp only [watch]
  split
  · exact idles_finished rfl
  · split
    · exact idles_moved rfl True.intro
    · exact idles_finished rfl

theorem idles_synchronized (result : SyncResult) (hs : s.sessions = r) :
    Comes (Idles r) (synchronized v name request result s) := by
  simp only [synchronized]
  split
  · exact idles_inspect _ hs
  · exact idles_finished hs

theorem idles_saveTurn (settings : Settings) (step : SettingsFile.SaveStep) (s : ServiceState) :
    Comes (Idles s.sessions) (saveTurn v name settings step s) := by
  simp only [saveTurn]
  split
  · exact idles_finished rfl
  · split
    · exact idles_moved rfl True.intro
    · exact idles_finished rfl

/-- A handler that is idle leaves sessions alone, and stays idle. -/
theorem idles_phaseTurn (hp : p.Idle) :
    Comes (Idles s.sessions) (phaseTurn v now strand news m p s) := by
  cases p with
  | inspecting path => exact idles_finished rfl
  | watching w =>
    simp only [phaseTurn]
    cases w.turn now s.checkouts.board with
    | parked => exact .parked
    | moved => exact idles_moved rfl True.intro
    | finished => exact idles_finished rfl
  | locating settings =>
    simp only [phaseTurn]
    split
    · exact idles_moved rfl True.intro
    · exact .parked
  | saving settings step => exact idles_saveTurn settings step s
  | _ => cases hp

/-! ### Handlers that are given up -/

/-- What holds of sessions whatever call on them is given up holds when a handler is given up. -/
theorem drop_induction {P : Sessions → Prop} (h : Handler) (hs : P s.sessions)
    (hdrop : ∀ (r : Sessions) (n : Nat) (phase : SessionPhase), P r → P (r.dropOn n phase)) :
    P (h.drop s).sessions := by
  obtain ⟨message, phase⟩ := h
  cases phase with
  | calling request n phase rest => exact hdrop s.sessions n phase hs
  | synchronizing request call e | removing call e =>
    cases e with
    | none => exact hs
    | some e => exact e.drop_induction hs hdrop
  | evicting one e => exact e.drop_induction hs hdrop
  | arrived | loading | loaded | inspecting | watching | locating | saving => exact hs

end Handler

end CodeNav
