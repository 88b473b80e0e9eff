import CodeNav.Proofs.Server.Closings

/-!
# How sessions evolve

No session is forgotten, one that is closed stays closed, and what comes into the table of sessions that
may be handed out is a session that has just been made. This is true of whatever is done to sessions: of
calls that are made on them, of handing out and taking out, and of what goes on in them by themselves.

## Main definitions

* `Sessions.Evolves`: sessions, and what may become of them
* `Sessions.Used`: what comes of sessions that are handed out and called

## Main statements

* `Sessions.evolves_beginOn`, `Sessions.evolves_turnOn`, `Sessions.evolves_dropOn`: calls on sessions
* `Sessions.Used.evolves`: calls in a row, on sessions that are handed out
* `Sessions.evolves_get`, `Sessions.evolves_evict`, `Sessions.evolves_evictionTurn`: handing out and taking
  out
* `Sessions.evolves_background`: what goes on by itself
-/

namespace CodeNav

/-- A call that closes a session. -/
def SessionCall.closes : SessionCall → Bool
  | exit => true
  | close => true
  | _ => false

/-- A call by which a session is being closed. -/
def SessionPhase.closes : SessionPhase → Bool
  | closing _ => true
  | exiting _ => true
  | _ => false

/-! ### A session that is closed stays closed -/

namespace Session

variable {s s' : Session} {phase : SessionPhase} {now : Nat}

theorem Beside.closed (h : Beside s s') (hs : s.state = .closed) : s'.state = .closed :=
  h.state.elim (fun heq ↦ heq.trans hs) id

theorem closed_begin (call : SessionCall) (hs : s.state = .closed) : (begin call s).2.state = .closed :=
  (s.beside_begin fun _ _ ↦ by rw [hs]; nofun).closed hs

theorem closed_launched (started : Except SessionError Unit) (hs : s.state = .closed) :
    (s.launched started).state = .closed := by
  rcases s.launched_eq started with ⟨e, heq⟩ | ⟨call, c, heq, -⟩
  · rw [heq]
    rfl
  · rw [heq]
    exact hs

/-- The handshake of a closed session does not open it again. -/
theorem closed_handshakeTurn (hs : s.state = .closed) :
    (s.handshakeTurn now).Leads fun s' ↦ s'.state = .closed := by
  cases hturn : s.handshakeTurn now with
  | parked => exact True.intro
  | moved u s' =>
    obtain ⟨call, call', c, c', -, -, -, -, rfl⟩ := handshakeTurn_eq_moved hturn
    exact hs
  | finished u s' =>
    obtain ⟨call, c, c', r, -, -, -, -, rfl⟩ := handshakeTurn_eq_finished hturn
    cases r with
    | error e => rfl
    | ok answer => simp [Turn.Leads, handshakeAnswered, withClient, hs]

/-- A session is being closed only by a call that closes it. -/
theorem Begins.closes_eq_false {call : SessionCall} {b : SessionPhase ⊕ SessionResult}
    (h : Begins s call b s') (hcall : call.closes = false) (hb : b = .inl phase) :
    phase.closes = false := by
  cases h with
  | atOnce => cases hb
  | shut => cases hcall
  | exit what s₀ hs₀ hwhat => rcases hwhat with rfl | rfl <;> cases hcall
  | start | wait | tell | enter | ask =>
    obtain rfl := Sum.inl.inj hb
    rfl

theorem Goes.closes_eq_false {phase' : SessionPhase} (h : Goes now s phase phase' s')
    (hphase : phase.closes = false) : phase'.closes = false := by
  cases h with
  | send | await => rfl
  | awaitShutdown | exit => cases hphase

end Session

namespace Sessions

/-- What may become of sessions: none of them is forgotten, a closed one stays closed, what comes into
the table is new, and the table has one session for a key if it had one before. -/
structure Evolves (r r' : Sessions) : Prop where
  closed : ∀ n s, r.session? n = some s →
    ∃ s', r'.session? n = some s' ∧ (s.state = .closed → s'.state = .closed)
  size : r.all.length ≤ r'.all.length
  table : ∀ key n, (key, n) ∈ r'.table →
    (key, n) ∈ r.table ∨ r.all.length ≤ n ∧ n < r'.all.length
  keys : (r.table.map Prod.fst).Nodup → (r'.table.map Prod.fst).Nodup

namespace Evolves

variable {r r' r'' : Sessions}

theorem refl (r : Sessions) : Evolves r r :=
  ⟨fun _ s hs ↦ ⟨s, hs, id⟩, Nat.le_refl _, fun _ _ hmem ↦ Or.inl hmem, id⟩

theorem trans (h : Evolves r r') (h' : Evolves r' r'') : Evolves r r'' where
  closed n s hs := by
    obtain ⟨s', hs', hclosed⟩ := h.closed n s hs
    obtain ⟨s'', hs'', hclosed'⟩ := h'.closed n s' hs'
    exact ⟨s'', hs'', hclosed' ∘ hclosed⟩
  size := Nat.le_trans h.size h'.size
  table key n hmem := by
    rcases h'.table key n hmem with hmem | ⟨hnew, hlt⟩
    · exact (h.table key n hmem).imp_right (And.imp_right fun hlt ↦ Nat.lt_of_lt_of_le hlt h'.size)
    · exact Or.inr ⟨Nat.le_trans h.size hnew, hlt⟩
  keys := h'.keys ∘ h.keys

/-- One session has changed. -/
theorem put {n : Nat} {s s' : Session} (hs : r.session? n = some s)
    (hclosed : s.state = .closed → s'.state = .closed) : Evolves r (r.put n s') where
  closed m x hx := by
    rw [session?_put hs]
    split
    · rename_i heq
      subst heq
      obtain rfl := Option.some.inj (hs.symm.trans hx)
      exact ⟨s', rfl, hclosed⟩
    · exact ⟨x, hx, id⟩
  size := Nat.le_of_eq (List.length_set).symm
  table _ _ hmem := Or.inl hmem
  keys := id

theorem change (r : Sessions) (n : Nat) {f : Session → Session}
    (hclosed : ∀ s, s.state = .closed → (f s).state = .closed) : Evolves r (r.change n f) where
  closed m x hx := by
    rw [session?_change]
    split
    · exact ⟨f x, congrArg (Option.map f) hx, hclosed x⟩
    · exact ⟨x, hx, id⟩
  size := Nat.le_of_eq (List.length_modify ..).symm
  table _ _ hmem := Or.inl hmem
  keys := id

/-- Sessions that are no longer handed out. -/
theorem of_table (r : Sessions) {table : List (RepositoryKey × Nat)} (h : table.Sublist r.table) :
    Evolves r { r with table := table } :=
  ⟨fun _ s hs ↦ ⟨s, hs, id⟩, Nat.le_refl _, fun _ _ hmem ↦ Or.inl (h.subset hmem),
    (h.map Prod.fst).nodup⟩

end Evolves

variable {r r' : Sessions} {fs : FileSystem} {now n : Nat} {key : RepositoryKey}

/-! ### Calls -/

theorem evolves_beginOn (r : Sessions) (n : Nat) (call : SessionCall) :
    Evolves r (r.beginOn n call).2 := by
  simp only [beginOn]
  split
  · exact .refl r
  · rename_i s hs
    exact .put hs (Session.closed_begin call)

theorem evolves_turnOn (r : Sessions) (fs : FileSystem) (now n : Nat) (phase : SessionPhase) :
    (r.turnOn fs now n phase).Leads (Evolves r) := by
  simp only [turnOn]
  split
  · exact .refl r
  · rename_i s hs
    exact Turn.leads_lift ((s.leads_turn fs now phase).imp fun s' h ↦ .put hs h.closed)

theorem evolves_dropOn (r : Sessions) (n : Nat) (phase : SessionPhase) :
    Evolves r (r.dropOn n phase) :=
  .change r n fun s ↦ (s.beside_drop phase).closed

/-- A session is being closed only by a call that closes it. -/
theorem closes_eq_false_of_beginOn {call : SessionCall} {phase : SessionPhase}
    (h : r.beginOn n call = (.inl phase, r')) (hcall : call.closes = false) :
    phase.closes = false := by
  simp only [beginOn] at h
  split at h
  · cases h
  · rename_i s hs
    exact (s.begins_begin call).closes_eq_false hcall (Prod.mk.inj h).1

theorem closes_eq_false_of_turnOn {phase phase' : SessionPhase}
    (h : r.turnOn fs now n phase = .moved phase' r') (hphase : phase.closes = false) :
    phase'.closes = false := by
  obtain ⟨s, s', -, hturn, -⟩ := turnOn_eq_moved h
  exact (Session.goes_of_turn hturn).closes_eq_false hphase

/-! ### Handing out and taking out -/

theorem evolves_make (r : Sessions) (key : RepositoryKey) : Evolves r (r.make key).2 where
  closed m x hx := by
    have hne : m ≠ r.all.length := by
      rintro rfl
      rw [session?, List.getElem?_eq_none (Nat.le_refl _)] at hx
      cases hx
    rw [session?_make, if_neg hne]
    exact ⟨x, hx, id⟩
  size := by simp [make]
  table k m hmem := by
    rcases List.mem_append.mp hmem with hmem | hmem
    · exact Or.inl (List.filter_sublist.subset hmem)
    · obtain ⟨-, rfl⟩ := Prod.mk.inj (List.mem_singleton.mp hmem)
      exact Or.inr ⟨Nat.le_refl _, by simp [make]⟩
  keys hkeys := by
    have hsub : (r.without key).table.Sublist r.table := List.filter_sublist
    rw [make, List.map_append]
    refine List.nodup_append'.mpr ⟨(hsub.map _).nodup hkeys, List.nodup_singleton _, ?_⟩
    simp [without]

theorem evolves_get (r : Sessions) (key : RepositoryKey) : Evolves r (r.get key).2 := by
  simp only [get]
  split
  · exact evolves_make r key
  · rename_i n _
    have hlook : Evolves r (r.change n Session.observe) :=
      .change r n fun s ↦ s.beside_observe.closed
    split
    · exact hlook.trans (evolves_make _ key)
    · split
      · exact hlook.trans (evolves_make _ key)
      · exact hlook

theorem admitsClosing_evolves : AdmitsClosing Evolves where
  refl := .refl
  trans := .trans
  beginOn r n := evolves_beginOn r n .close
  turnOn := evolves_turnOn

theorem evolves_evict (r : Sessions) (call : EvictionCall) :
    Evolves r (Eviction.begin call r).2 :=
  admitsClosing_evolves.evict Evolves.of_table r call

theorem evolves_evictionTurn (e : Eviction) (fs : FileSystem) (now i : Nat) (r : Sessions) :
    (e.turn fs now i r).Leads (Evolves r) :=
  admitsClosing_evolves.evictionTurn e fs now i r

theorem evolves_turnFor (e : Option Eviction) (fs : FileSystem) (now : Nat) (key : RepositoryKey)
    (r : Sessions) : (Eviction.turnFor fs now key e r).Leads (Evolves r) :=
  admitsClosing_evolves.turnFor Evolves.of_table e fs now key r

/-! ### Sessions that are used -/

/-- What comes of sessions that are handed out and called, but not taken out. Calls that close a session
are among the calls only if `closing`. -/
inductive Used (closing : Prop) (r : Sessions) : Sessions → Prop
  | refl : Used closing r r
  | get {r' : Sessions} (h : Used closing r r') (key : RepositoryKey) : Used closing r (r'.get key).2
  | begun {r' : Sessions} (h : Used closing r r') (n : Nat) {call : SessionCall}
      (hcall : closing ∨ call.closes = false) : Used closing r (r'.beginOn n call).2
  | goes {r' r'' : Sessions} {fs : FileSystem} {now n : Nat} {phase phase' : SessionPhase}
      (h : Used closing r r') (hphase : closing ∨ phase.closes = false)
      (hturn : r'.turnOn fs now n phase = .moved phase' r'') : Used closing r r''
  | ends {r' r'' : Sessions} {fs : FileSystem} {now n : Nat} {phase : SessionPhase}
      {result : SessionResult} (h : Used closing r r') (hphase : closing ∨ phase.closes = false)
      (hturn : r'.turnOn fs now n phase = .finished result r'') : Used closing r r''

namespace Used

variable {closing : Prop} {r'' : Sessions}

theorem of_eq (h : r' = r) : r.Used closing r' := h ▸ .refl

theorem evolves (h : r.Used closing r') : Evolves r r' := by
  induction h with
  | refl => exact .refl r
  | get _ key ih => exact ih.trans (evolves_get _ key)
  | begun _ n _ ih => exact ih.trans (evolves_beginOn _ n _)
  | goes _ _ hturn ih => exact ih.trans ((evolves_turnOn ..).moved hturn)
  | ends _ _ hturn ih => exact ih.trans ((evolves_turnOn ..).finished hturn)

end Used

/-! ### What goes on by itself -/

theorem evolves_background {e : SessionEvent} {launching launching' : Nat → Option LaunchSpec}
    (h : Background now n r launching e r' launching') : Evolves r r' := by
  cases h with
  | launch => exact .refl r
  | launched started hs => exact .put hs (Session.closed_launched started)
  | serve bytes accepts ended hs => exact .put hs id
  | shake h =>
    obtain ⟨s, s', hs, hturn, rfl⟩ := handshakeTurn_eq_moved h
    exact .put hs fun hclosed ↦ (Session.closed_handshakeTurn hclosed).moved hturn
  | shaken h =>
    obtain ⟨s, s', hs, hturn, rfl⟩ := handshakeTurn_eq_finished h
    exact .put hs fun hclosed ↦ (Session.closed_handshakeTurn hclosed).finished hturn
  | read h =>
    obtain ⟨s, c, c', hs, -, -, rfl⟩ := readerTurn_eq_some h
    exact .put hs id

end Sessions

end CodeNav
