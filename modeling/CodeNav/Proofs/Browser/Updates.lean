import CodeNav.Proofs.Browser.Service
import CodeNav.Proofs.Settings.Steps

/-!
# Handlers of updates

Some messages change the settings. The handler of such a message first loads the settings, may then look up
the place of the libraries of a platform, and stores the settings as they are after its update in three steps.
Nobody stops another handler from taking its turns in between.

## Main definitions

* `Settings.Update.located`: an update, with the place of the libraries that was looked up for it
* `UpdateEvent`, `ServiceWorld.Updating`: the steps of handlers of updates
* `UpdateStage`, `Handler.At`: how far the handler of an update has come
* `UpdateStage.Turn`: what a turn of such a handler does

## Main statements

* `ServiceWorld.Updating.exists_step`: the steps are those of any handlers
* `Handler.At.turn`: what a turn does
-/

namespace CodeNav

open SettingsFile (Site)

/-! ### Updates -/

namespace Settings

/-- Whether the place of the libraries is looked up for an update. -/
def Update.isSought (u : Update) : Bool := u.sdk.isSome && u.sdkPath.isNone

/-- An update, with the place of the libraries that was looked up for it. -/
def Update.located (u : Update) (locate : String → Option String) : Update :=
  if u.isSought then { u with sdkPath := u.sdk.bind locate } else u

variable {s : Settings} {u : Update} {locate : String → Option String}

theorem apply_located (h : u.isSought = true) : s.apply (u.located locate) =
    { s.apply u with sdkPath := (locate (s.apply u).sdk).getD (s.apply u).sdkPath } := by
  obtain ⟨hsdk, hpath⟩ := Bool.and_eq_true_iff.mp h
  obtain ⟨sdk, hsdk⟩ := Option.isSome_iff_exists.mp hsdk
  rw [Update.located, if_pos h]
  simp [apply, hsdk, Option.isNone_iff_eq_none.mp hpath]

theorem located_eq_self (h : u.isSought = false) : u.located locate = u := by
  rw [Update.located, h, if_neg Bool.false_ne_true]

/-- Settings after updates one after the other; each comes with the number of its handler. -/
def after (locate : Nat → String → Option String) (s : Settings) (l : List (Nat × Update)) : Settings :=
  l.foldl (fun s x ↦ s.apply (x.2.located (locate x.1))) s

@[simp]
theorem after_concat (locate : Nat → String → Option String) (l : List (Nat × Update)) (x : Nat × Update) :
    s.after locate (l ++ [x]) = (s.after locate l).apply (x.2.located (locate x.1)) := by
  simp [after]

end Settings

/-! ### Replies -/

namespace PageMessage

/-- The reply to a message whose update was stored. -/
def stored (m : PageMessage) : Reply := (Reply.success m.name none).addressed m.tab m.repeatedInfo

/-- The reply to a message whose update was not stored. -/
def notStored (m : PageMessage) (e : SettingsError) : Reply :=
  (Reply.error m.name e.chain).addressed m.tab m.repeatedInfo

end PageMessage

/-! ### Steps -/

/-- What is seen of updates. -/
inductive UpdateEvent where
  | arrived (message : PageMessage) (u : Settings.Update)
  /-- A handler takes a turn, in which it may load the settings for its update, or reply. -/
  | turn (handler : Nat) (loading? : Option Settings.Update) (reply? : Option Reply)
  /-- Something else. -/
  | other

namespace UpdateEvent

/-- A message that has arrived, and its update. -/
def arrival? : UpdateEvent → Option (PageMessage × Settings.Update)
  | arrived m u => some (m, u)
  | _ => none

/-- An update for which the settings are loaded, and the number of its handler. -/
def load? : UpdateEvent → Option (Nat × Settings.Update)
  | turn n (some u) _ => some (n, u)
  | _ => none

/-- A reply, and the number of its handler. -/
def reply? : UpdateEvent → Option (Nat × Reply)
  | turn n _ (some r) => some (n, r)
  | _ => none

/-- All messages, as they arrived. -/
def arrivals (t : List UpdateEvent) : List (PageMessage × Settings.Update) := t.filterMap arrival?

/-- All updates, as the settings were loaded for them. -/
def loads (t : List UpdateEvent) : List (Nat × Settings.Update) := t.filterMap load?

/-- All replies. -/
def replies (t : List UpdateEvent) : List (Nat × Reply) := t.filterMap reply?

variable {t : List UpdateEvent}

@[simp]
theorem arrivals_concat (e : UpdateEvent) : arrivals (t ++ [e]) = arrivals t ++ e.arrival?.toList := by
  cases h : e.arrival? <;> simp [arrivals, h]

@[simp]
theorem loads_concat (e : UpdateEvent) : loads (t ++ [e]) = loads t ++ e.load?.toList := by
  cases h : e.load? <;> simp [loads, h]

@[simp]
theorem replies_concat (e : UpdateEvent) : replies (t ++ [e]) = replies t ++ e.reply?.toList := by
  cases h : e.reply? <;> simp [replies, h]

end UpdateEvent

namespace Handler

/-- The update for which a handler is about to load the settings. -/
def loading? (h : Handler) : Option Settings.Update :=
  match h.phase with
  | .loading (.updateSettings u) => some u
  | _ => none

/-- How many turns the handler of an update may still take. -/
def turnsLeft (h : Handler) : Nat :=
  match h.phase with
  | .arrived => 7
  | .loading _ => 6
  | .loaded _ _ => 5
  | .locating _ => 4
  | .saving _ .makeFolder => 3
  | .saving _ .writeStaging => 2
  | .saving _ .replace => 1
  | _ => 0

/-- What a handler hears when it looks up the place of libraries. -/
def newsOf (locate : String → Option String) (h : Handler) : HandlerNews :=
  match h.wants with
  | .libraries platform => .libraries (locate platform)
  | _ => .nothing

end Handler

namespace ServiceWorld

variable {v : Service} {w w' : ServiceWorld} {e : UpdateEvent} {locate : Nat → String → Option String}

/-- What comes of a turn of a handler, if it can go on. -/
def updateTurn (v : Service) (locate : Nat → String → Option String) (w : ServiceWorld) (n : Nat) :
    Option (UpdateEvent × ServiceWorld) :=
  match w.handlers[n]? with
  | some (some h) =>
    match h.turn v w.now 0 (h.newsOf (locate n)) w.state with
    | .parked _ => none
    | .moved h' s =>
      some (.turn n h.loading? none, { w with state := s, handlers := w.handlers.set n (some h') })
    | .finished reply s =>
      some (.turn n none (some reply), { w with state := s, handlers := w.handlers.set n none })
  | _ => none

/-- The steps of handlers of updates. Each of them finds the place of libraries where `locate` says.
Meanwhile sessions go on by themselves, but nothing else writes files. -/
inductive Updating (v : Service) (locate : Nat → String → Option String) (w : ServiceWorld) :
    UpdateEvent → ServiceWorld → Prop
  | arrive (message : PageMessage) {u : Settings.Update}
      (h : Request.parse message.name message.userInfo = .ok (.updateSettings u)) :
      Updating v locate w (.arrived message u) { w with handlers := w.handlers ++ [some (.begin message)] }
  | turn {n : Nat} {e : UpdateEvent} {w' : ServiceWorld} (h : w.updateTurn v locate n = some (e, w')) :
      Updating v locate w e w'
  | inside {n : Nat} {e : SessionEvent} {r : Sessions} {launching : Nat → Option LaunchSpec}
      (h : Background w.now n w.state.sessions w.launching e r launching) :
      Updating v locate w .other { w.withSessions r with launching := launching }
  | pass (d : Nat) : Updating v locate w .other { w with now := w.now + d }

/-- The steps are those of any handlers. -/
theorem Updating.exists_step (h : w.Updating v locate e w') : ∃ e', w.Step v e' w' := by
  cases h with
  | arrive message => exact ⟨_, .arrive message⟩
  | @turn n e w' h =>
    simp only [updateTurn] at h
    split at h
    · rename_i hn
      split at h
      · cases h
      · rename_i hturn
        obtain ⟨-, rfl⟩ := Prod.mk.inj (Option.some.inj h)
        exact ⟨_, .turn 0 _ hn hturn⟩
      · rename_i hturn
        obtain ⟨-, rfl⟩ := Prod.mk.inj (Option.some.inj h)
        exact ⟨_, .finish 0 _ hn hturn⟩
    · cases h
  | inside h => exact ⟨_, .inside h⟩
  | pass d => exact ⟨_, .pass d⟩

end ServiceWorld

/-! ### Stages -/

/-- How far the handler of an update has come. -/
inductive UpdateStage where
  | begun
  /-- The settings are loaded. -/
  | loaded (s : Settings)
  /-- The folder is there. -/
  | placed (s : Settings)
  /-- The new settings were written beside the file. -/
  | staged (s : Settings)

namespace UpdateStage

/-- Whether the folder has been made. -/
def IsLate : UpdateStage → Prop
  | begun => False
  | loaded _ => False
  | placed _ => True
  | staged _ => True

/-- What a turn at a stage does, for an update `u` that stands in a message: the update for which settings are
loaded in it, the next stage or the reply, and the files then. -/
inductive Turn (f : SettingsFile) (fs : FileSystem) (m : PageMessage) (u : Settings.Update)
    (locate : String → Option String) :
    UpdateStage → Option Settings.Update → UpdateStage ⊕ Reply → FileSystem → Prop
  | begin : Turn f fs m u locate begun none (.inl begun) fs
  | load {s : Settings} (h : f.load fs = .ok s) : Turn f fs m u locate begun (some u) (.inl (loaded s)) fs
  | wait {s : Settings} : Turn f fs m u locate (loaded s) none (.inl (loaded s)) fs
  | place {s : Settings} {fs' : FileSystem}
      (h : f.perform (s.apply (u.located locate)) .makeFolder fs = .ok fs') :
      Turn f fs m u locate (loaded s) none (.inl (placed s)) fs'
  | stage {s : Settings} {fs' : FileSystem}
      (h : f.perform (s.apply (u.located locate)) .writeStaging fs = .ok fs') :
      Turn f fs m u locate (placed s) none (.inl (staged s)) fs'
  | store {s : Settings} {fs' : FileSystem}
      (h : f.perform (s.apply (u.located locate)) .replace fs = .ok fs') :
      Turn f fs m u locate (staged s) none (.inr m.stored) fs'
  | lose {s : Settings} {e : SettingsError}
      (h : f.perform (s.apply (u.located locate)) .replace fs = .error e) :
      Turn f fs m u locate (staged s) none (.inr (m.notStored e)) fs

end UpdateStage

/-- A handler of an update has come to a stage. -/
inductive Handler.At (locate : String → Option String) (u : Settings.Update) : UpdateStage → Handler → Prop
  | arrived {m : PageMessage} (h : Request.parse m.name m.userInfo = .ok (.updateSettings u)) :
      At locate u .begun ⟨m, .arrived⟩
  | loading {m : PageMessage} : At locate u .begun ⟨m, .loading (.updateSettings u)⟩
  | loaded {m : PageMessage} {s : Settings} : At locate u (.loaded s) ⟨m, .loaded (.updateSettings u) (.ok s)⟩
  | locating {m : PageMessage} {s : Settings} (h : u.isSought = true) :
      At locate u (.loaded s) ⟨m, .locating (s.apply u)⟩
  | making {m : PageMessage} {s : Settings} :
      At locate u (.loaded s) ⟨m, .saving (s.apply (u.located locate)) .makeFolder⟩
  | writing {m : PageMessage} {s : Settings} :
      At locate u (.placed s) ⟨m, .saving (s.apply (u.located locate)) .writeStaging⟩
  | replacing {m : PageMessage} {s : Settings} :
      At locate u (.staged s) ⟨m, .saving (s.apply (u.located locate)) .replace⟩

namespace Handler

variable {v : Service} {now strand : Nat} {locate : String → Option String} {u : Settings.Update}
  {stage : UpdateStage} {h : Handler} {x : Site} {s : ServiceState} {stored : Settings}

/-- What comes of a turn of the handler of an update: it comes nearer to its end, or replies. -/
inductive Goes (locate : String → Option String) (u : Settings.Update) (h : Handler) (s : ServiceState)
    (fs : FileSystem) : UpdateStage ⊕ Reply → Turn ServiceState Handler Reply → Prop
  | moved {h' : Handler} {stage : UpdateStage} (hmessage : h'.message = h.message)
      (hless : h'.turnsLeft < h.turnsLeft) (hat : h'.At locate u stage) :
      Goes locate u h s fs (.inl stage) (.moved h' (s.withFiles fs))
  | finished (r : Reply) (hless : 0 < h.turnsLeft) :
      Goes locate u h s fs (.inr r) (.finished r (s.withFiles fs))

theorem start_updateSettings (name : String) (u : Settings.Update) :
    start v now name (.updateSettings u) s = .moved (.loading (.updateSettings u)) s := rfl

/-- What a turn of the handler of an update does, when settings can be stored. -/
theorem At.turn (hat : h.At locate u stage) (hready : x.Ready v.settings s.fs stored)
    (hopen : stage.IsLate → x.Open v.settings s.fs) : ∃ next fs',
      UpdateStage.Turn v.settings s.fs h.message u locate stage h.loading? next fs' ∧
      Goes locate u h s fs' next (h.turn v now strand (h.newsOf locate) s) := by
  cases hat with
  | @arrived m hparse =>
    refine ⟨_, _, .begin, ?_⟩
    simp only [Handler.turn, phaseTurn, hparse, start_updateSettings, Turn.map]
    exact .moved rfl (by simp [turnsLeft]) .loading
  | @loading m =>
    refine ⟨_, _, .load hready.load, ?_⟩
    simp only [Handler.turn, phaseTurn, hready.load, Turn.map]
    exact .moved rfl (by simp [turnsLeft]) .loaded
  | @loaded m s' =>
    refine ⟨_, _, .wait, ?_⟩
    have hsearch : (u.sdk.isSome && u.sdkPath.isNone) = u.isSought := rfl
    simp only [Handler.turn, phaseTurn, settingsRead, hsearch]
    cases hsought : u.isSought with
    | true =>
      rw [if_pos rfl]
      exact .moved rfl (by simp [turnsLeft]) (.locating hsought)
    | false =>
      have hat : At locate u (.loaded s') ⟨m, .saving (s'.apply (u.located locate)) .makeFolder⟩ := .making
      rw [Settings.located_eq_self hsought] at hat
      rw [if_neg Bool.false_ne_true]
      exact .moved rfl (by simp [turnsLeft]) hat
  | @locating m s' hsought =>
    refine ⟨_, _, .wait, ?_⟩
    simp only [Handler.turn, newsOf, wants, phaseTurn, ← Settings.apply_located hsought, Turn.map]
    exact .moved rfl (by simp [turnsLeft]) .making
  | @making m s' =>
    obtain ⟨fs', hfolder, -⟩ := hready.folder
    refine ⟨_, _, .place (hfolder _), ?_⟩
    simp only [Handler.turn, phaseTurn, saveTurn, hfolder, SettingsFile.SaveStep.next?, Turn.map]
    exact .moved rfl (by simp [turnsLeft]) .writing
  | @writing m s' =>
    obtain ⟨fs', runnable, hwrite, -⟩ := (hopen trivial).writeStaging (s'.apply (u.located locate))
    refine ⟨_, _, .stage hwrite, ?_⟩
    simp only [Handler.turn, phaseTurn, saveTurn, hwrite, SettingsFile.SaveStep.next?, Turn.map]
    exact .moved rfl (by simp [turnsLeft]) .replacing
  | @replacing m s' =>
    cases hreplace : v.settings.perform (s'.apply (u.located locate)) .replace s.fs with
    | ok fs' =>
      refine ⟨_, _, .store hreplace, ?_⟩
      simp only [Handler.turn, phaseTurn, saveTurn, hreplace, SettingsFile.SaveStep.next?, Turn.map]
      exact .finished _ (by simp [turnsLeft])
    | error e =>
      refine ⟨_, _, .lose hreplace, ?_⟩
      simp only [Handler.turn, phaseTurn, saveTurn, hreplace, Turn.map]
      exact .finished _ (by simp [turnsLeft])

end Handler

end CodeNav
