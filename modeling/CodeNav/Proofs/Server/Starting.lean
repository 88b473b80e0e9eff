import CodeNav.Proofs.Server.Evolution

/-!
# What starts servers

A server is started for a session that somebody has told to start, and a session is made when one is
handed out. Whatever else is done to sessions, none is made, none comes into the table, and no server is
going to be started for any of them.

## Main definitions

* `Sessions.Launching`: a session whose server is going to be started
* `Sessions.Spares`: what may become of sessions that are used, but neither handed out nor started
* `Sessions.Opens`: what may become of them when the session of a repository is handed out and started

## Main statements

* `Sessions.Spares.beginOn`, `Sessions.Spares.turnOn`, `Sessions.Spares.dropOn`: calls that start nothing
* `Sessions.Spares.evict`, `Sessions.Spares.evictionTurn`: taking out
* `Sessions.Spares.background`: what goes on by itself
* `Sessions.opens_get`, `Sessions.Opens.beginOn`: handing out, and calls on the session that was handed out
-/

namespace CodeNav

/-- A call that gets a session started. -/
def SessionCall.starts : SessionCall → Bool
  | start _ => true
  | _ => false

namespace Session

variable {s s' : Session} {spec : LaunchSpec} {now : Nat}

/-- What comes of a launch is not another one. -/
theorem handshake_launched_ne (s : Session) (started : Except SessionError Unit) (spec : LaunchSpec) :
    (s.launched started).handshake ≠ .launching spec := by
  intro hspec
  rcases s.launched_eq started with ⟨e, heq⟩ | ⟨call, c, heq, -⟩ <;> rw [heq] at hspec <;> cases hspec

/-- A handshake that goes on is past its launch. -/
theorem leads_handshakeTurn (s : Session) (now : Nat) :
    (s.handshakeTurn now).Leads fun s' ↦ ∀ spec, s'.handshake ≠ .launching spec := by
  cases hturn : s.handshakeTurn now with
  | parked => exact True.intro
  | moved u s' =>
    obtain ⟨call, call', c, c', -, -, -, -, rfl⟩ := handshakeTurn_eq_moved hturn
    intro spec hspec
    cases hspec
  | finished u s' =>
    obtain ⟨call, c, c', r, -, -, -, -, rfl⟩ := handshakeTurn_eq_finished hturn
    intro spec hspec
    cases r with
    | error e => cases hspec
    | ok answer =>
      simp only [handshakeAnswered] at hspec
      split at hspec <;> cases hspec

end Session

namespace Sessions

/-- The server of a session is going to be started. -/
def Launching (r : Sessions) (n : Nat) (spec : LaunchSpec) : Prop :=
  (r.session? n).map Session.handshake = some (.launching spec)

/-- What may become of sessions that are used, but neither handed out nor started: none is made, none
comes into the table, and no server is going to be started that was not before. -/
structure Spares (r r' : Sessions) : Prop where
  table : r'.table.Sublist r.table
  size : r'.all.length = r.all.length
  launching : ∀ n spec, r'.Launching n spec → r.Launching n spec

/-- What may become of sessions when that of a repository is handed out and started. -/
structure Opens (key : RepositoryKey) (r r' : Sessions) : Prop where
  table : ∀ entry ∈ r'.table, entry ∈ r.table ∨ entry = (key, (r.get key).1)
  launching : ∀ n spec, r'.Launching n spec → r.Launching n spec ∨ n = (r.get key).1

variable {r r' r'' : Sessions} {fs : FileSystem} {now n : Nat} {key : RepositoryKey} {s s' : Session}

theorem launching_iff (hs : r.session? n = some s) {spec : LaunchSpec} :
    r.Launching n spec ↔ s.handshake = .launching spec := by
  rw [Launching, hs, Option.map_some, Option.some_inj]

/-- One session has changed. -/
theorem launching_put (hs : r.session? n = some s) {m : Nat} {spec : LaunchSpec}
    (h : (r.put n s').Launching m spec) :
    r.Launching m spec ∨ m = n ∧ s'.handshake = .launching spec := by
  rw [Launching, session?_put hs] at h
  split at h
  · rename_i heq
    exact Or.inr ⟨heq, Option.some.inj h⟩
  · exact Or.inl h

/-! ### Sessions that are used -/

namespace Spares

theorem refl (r : Sessions) : Spares r r := ⟨List.Sublist.refl _, rfl, fun _ _ ↦ id⟩

theorem of_eq (h : r' = r) : Spares r r' := h ▸ refl r

theorem trans (h : Spares r r') (h' : Spares r' r'') : Spares r r'' where
  table := h'.table.trans h.table
  size := h'.size.trans h.size
  launching n spec hn := h.launching n spec (h'.launching n spec hn)

/-- One session has changed. -/
theorem put (hs : r.session? n = some s)
    (h : ∀ spec, s'.handshake = .launching spec → s.handshake = .launching spec) :
    Spares r (r.put n s') where
  table := List.Sublist.refl _
  size := List.length_set
  launching m spec hm := by
    rcases launching_put hs hm with hm | ⟨rfl, hs'⟩
    · exact hm
    · exact (launching_iff hs).mpr (h spec hs')

theorem put_beside (hs : r.session? n = some s) (h : s.Beside s') : Spares r (r.put n s') :=
  put hs fun _ hs' ↦ h.handshake ▸ hs'

theorem change (r : Sessions) (n : Nat) {f : Session → Session} (hf : ∀ s, Session.Beside s (f s)) :
    Spares r (r.change n f) where
  table := List.Sublist.refl _
  size := List.length_modify ..
  launching m spec hm := by
    rw [Launching, session?_change] at hm
    split at hm
    · rwa [Option.map_map, show Session.handshake ∘ f = Session.handshake from
        funext fun s ↦ (hf s).handshake] at hm
    · exact hm

/-- Sessions that are no longer handed out. -/
theorem of_table (r : Sessions) {table : List (RepositoryKey × Nat)} (h : table.Sublist r.table) :
    Spares r { r with table := table } :=
  ⟨h, rfl, fun _ _ ↦ id⟩

theorem beginOn (r : Sessions) (n : Nat) {call : SessionCall} (hcall : call.starts = false) :
    Spares r (r.beginOn n call).2 := by
  simp only [Sessions.beginOn]
  split
  · exact refl r
  · rename_i s hs
    refine put_beside hs (s.beside_begin fun context heq ↦ ?_)
    rw [heq] at hcall
    cases hcall

theorem turnOn (r : Sessions) (fs : FileSystem) (now n : Nat) (phase : SessionPhase) :
    (r.turnOn fs now n phase).Leads (Spares r) := by
  simp only [Sessions.turnOn]
  split
  · exact refl r
  · rename_i s hs
    exact Turn.leads_lift ((s.leads_turn fs now phase).imp fun s' h ↦ put_beside hs h)

theorem dropOn (r : Sessions) (n : Nat) (phase : SessionPhase) : Spares r (r.dropOn n phase) :=
  change r n fun s ↦ s.beside_drop phase

/-! ### Taking out -/

theorem admitsClosing : AdmitsClosing Spares where
  refl := refl
  trans := trans
  beginOn r n := beginOn r n rfl
  turnOn := turnOn

theorem evict (r : Sessions) (call : EvictionCall) : Spares r (Eviction.begin call r).2 :=
  admitsClosing.evict of_table r call

theorem evictionTurn (e : Eviction) (fs : FileSystem) (now i : Nat) (r : Sessions) :
    (e.turn fs now i r).Leads (Spares r) :=
  admitsClosing.evictionTurn e fs now i r

theorem turnFor (e : Option Eviction) (fs : FileSystem) (now : Nat) (key : RepositoryKey)
    (r : Sessions) : (Eviction.turnFor fs now key e r).Leads (Spares r) :=
  admitsClosing.turnFor of_table e fs now key r

/-! ### What goes on by itself -/

theorem background {e : SessionEvent} {launching launching' : Nat → Option LaunchSpec}
    (h : Background now n r launching e r' launching') : Spares r r' := by
  cases h with
  | launch => exact refl r
  | @launched s _ started hs =>
    exact put hs fun spec hspec ↦ absurd hspec (s.handshake_launched_ne started spec)
  | serve bytes accepts ended hs => exact put hs fun _ ↦ id
  | shake h =>
    obtain ⟨s, s', hs, hturn, rfl⟩ := handshakeTurn_eq_moved h
    exact put hs fun spec hspec ↦ absurd hspec ((s.leads_handshakeTurn now).moved hturn spec)
  | shaken h =>
    obtain ⟨s, s', hs, hturn, rfl⟩ := handshakeTurn_eq_finished h
    exact put hs fun spec hspec ↦ absurd hspec ((s.leads_handshakeTurn now).finished hturn spec)
  | read h =>
    obtain ⟨s, c, c', hs, -, -, rfl⟩ := readerTurn_eq_some h
    exact put hs fun _ ↦ id

end Spares

/-! ### The session of a repository is handed out -/

/-- A session that is made is not started. -/
theorem launching_make {spec : LaunchSpec} (h : (r.make key).2.Launching n spec) :
    r.Launching n spec := by
  rw [Launching, session?_make] at h
  split at h
  · cases Option.some.inj h
  · exact h

theorem opens_get (r : Sessions) (key : RepositoryKey) : Opens key r (r.get key).2 := by
  have hmake : ∀ r' : Sessions, Spares r r' → (r.get key) = r'.make key →
      Opens key r (r.get key).2 := by
    intro r' hspares heq
    rw [heq]
    refine ⟨fun entry hentry ↦ ?_, fun n spec hn ↦ Or.inl ?_⟩
    · rcases List.mem_append.mp hentry with hentry | hentry
      · exact Or.inl (hspares.table.subset (List.filter_sublist.subset hentry))
      · rw [heq]
        exact Or.inr (List.mem_singleton.mp hentry)
    · exact hspares.launching n spec (launching_make hn)
  cases hfind : r.find? key with
  | none => exact hmake r (.refl r) (by simp only [get, hfind])
  | some n =>
    have hlook : Spares r (r.change n Session.observe) := .change r n Session.beside_observe
    cases hs : (r.change n Session.observe).session? n with
    | none => exact hmake _ hlook (by simp only [get, hfind, hs])
    | some s =>
      by_cases hclosed : s.state = .closed
      · exact hmake _ hlook (by simp only [get, hfind, hs, hclosed, if_true])
      · have hget : r.get key = (n, r.change n Session.observe) := by
          simp only [get, hfind, hs, hclosed, if_false]
        rw [hget]
        exact ⟨fun entry hentry ↦ Or.inl (hlook.table.subset hentry),
          fun m spec hm ↦ Or.inl (hlook.launching m spec hm)⟩

namespace Opens

theorem spares (h : Opens key r r') (h' : Spares r' r'') : Opens key r r'' where
  table entry hentry := h.table entry (h'.table.subset hentry)
  launching n spec hn := h.launching n spec (h'.launching n spec hn)

/-- A call on the session that was handed out. -/
theorem beginOn (h : Opens key r r') (call : SessionCall) :
    Opens key r (r'.beginOn (r.get key).1 call).2 := by
  simp only [Sessions.beginOn]
  split
  · exact h
  · rename_i s hs
    refine ⟨h.table, fun n spec hn ↦ ?_⟩
    rcases launching_put hs hn with hn | ⟨rfl, -⟩
    · exact h.launching n spec hn
    · exact Or.inr rfl

end Opens

end Sessions

end CodeNav
