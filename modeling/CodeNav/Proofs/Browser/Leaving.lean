import CodeNav.Proofs.Browser.Bridge
import CodeNav.Proofs.Browser.Doings
import CodeNav.Proofs.Server.Custody

/-!
# What a bridge leaves behind

When the input has ended, handlers are given up and the sessions that may still be handed out are closed.
So every session is closed when the bridge has ended, and every server that still runs was told to exit,
but for those sessions that a handler had taken out and was still closing when it was given up.

## Main definitions

* `BridgeWorld.custody`: the sessions, and who is closing some of them
* `BridgeWorld.Forsaken`: a session that a handler was closing when it was given up
* `BridgeWorld.Leaves`: a step that closes a session which has a server

## Main statements

* `BridgeWorld.custody_of_step`: every step uses sessions, takes them out, or closes them further, but for
  the one that gives handlers up
* `BridgeWorld.closed_of_ended`: what is left when the bridge has ended
* `BridgeWorld.exists_forsaken`: a server that still runs and was never told to exit
-/

namespace CodeNav

/-! ### What handlers do to those who close sessions -/

namespace HandlerPhase

variable {ι : Type} [DecidableEq ι] {now strand : Nat} {s s' : ServiceState} {p : HandlerPhase}
  {after : Option HandlerPhase} {held : ι → Option Eviction} {i : ι}

/-- The handler is one of those who close sessions. -/
theorem Does.custody (h : Does False now strand s p after s') (hi : held i = p.eviction?) :
    Custody.Step ⟨s.sessions, held⟩
      ⟨s'.sessions, Function.update held i (after.bind HandlerPhase.eviction?)⟩ := by
  have hsettles : p.eviction? = none → (∀ p', after = some p' → p'.eviction? = none) →
      s.sessions.Settles s'.sessions → Custody.Step ⟨s.sessions, held⟩
        ⟨s'.sessions, Function.update held i (after.bind HandlerPhase.eviction?)⟩ := by
    intro hnone hafter hsettles
    have hsame : Function.update held i (after.bind HandlerPhase.eviction?) = held := by
      have hbind : after.bind HandlerPhase.eviction? = held i := by
        rw [hi, hnone]
        cases after with
        | none => rfl
        | some p' => exact hafter p' rfl
      rw [hbind, Function.update_eq_self]
    rw [hsame]
    exact .settles hsettles
  cases h with
  | waits hp hp' _ hs =>
    exact hsettles hp.eviction? (fun _ heq ↦ Option.some.inj heq ▸ hp'.eviction?) (hs ▸ .refl _)
  | changes hk hk' h _ hs =>
    obtain ⟨hnot, htells, -⟩ := h.tells
    exact hsettles (eviction?_of_not_tells hk hnot)
      (fun _ heq ↦ Option.some.inj heq ▸ eviction?_of_tells hk' htells) (hs ▸ .refl _)
  | @tells k e e' p' _ hk hk' htells hturn =>
    rw [eviction?_of_tells hk htells] at hi
    rw [Option.bind_some, eviction?_of_tells hk' htells]
    cases e with
    | some e => exact .closes hi hturn
    | none => exact .takes hi (Eviction.turnFor_none_eq_moved.mp hturn)
  | @told k e any _ _ hk htells hturn hafter =>
    rw [eviction?_of_tells hk htells] at hi
    have hnone : after.bind HandlerPhase.eviction? = none := by
      cases after with
      | none => rfl
      | some p' => exact (hafter p' rfl).eviction
    rw [hnone]
    cases e with
    | some e => exact .closed hi hturn
    | none =>
      rw [← hi, Function.update_eq_self]
      exact .takesAtOnce (Eviction.turnFor_none_eq_finished.mp hturn)
  | acts hp huses =>
    exact hsettles hp (fun p' heq ↦ (huses.aside p' heq).eviction) (.of_used huses.used)
  | evicts hp hbegin => exact .takes (hi.trans hp.eviction?) hbegin
  | evictsAtOnce hp hbegin =>
    rw [Option.bind_none, ← hp.eviction?, ← hi, Function.update_eq_self]
    exact .takesAtOnce hbegin
  | closes hp hturn =>
    subst hp
    exact .closes hi hturn
  | closed hp hturn =>
    subst hp
    exact .closed hi hturn

end HandlerPhase

/-- Giving up a handler leaves its sessions as they are. -/
theorem Handler.settles_drop (h : Handler) (s : ServiceState) :
    s.sessions.Settles (h.drop s).sessions :=
  h.drop_induction (.refl _) fun r n phase hsettles ↦ hsettles.trans (.dropOn r n phase)

theorem Bridge.settles_dropAll (handlers : List (Option Handler)) (s : ServiceState) :
    s.sessions.Settles (dropAll handlers s).sessions := by
  induction handlers generalizing s with
  | nil => exact .refl _
  | cons h handlers ih =>
    cases h with
    | none => exact ih s
    | some h => exact (h.settles_drop s).trans (ih (h.drop s))

/-- The sessions that are left in the table are taken out when the input has ended. -/
theorem Bridge.beginClosing_cases (b : Bridge) : ∃ x r,
    Eviction.begin .all (dropAll b.handlers b.state).sessions = (x, r) ∧
      b.beginClosing.state.sessions = r ∧ b.beginClosing.handlers = b.handlers.map (fun _ ↦ none) ∧
        b.beginClosing.phase = x.elim .closing fun _ ↦ .draining := by
  obtain ⟨x, r, hbegin⟩ : ∃ x r, Eviction.begin .all (dropAll b.handlers b.state).sessions = (x, r) :=
    ⟨_, _, rfl⟩
  refine ⟨x, r, hbegin, ?_⟩
  simp only [beginClosing, hbegin]
  cases x <;> exact ⟨rfl, rfl, rfl⟩

/-- The handlers of messages that have just arrived. -/
theorem Bridge.exists_begin {values : List Json} {h : Option Handler} (hmem : h ∈ handlersOf values) :
    ∃ message, h = some (.begin message) := by
  obtain ⟨value, -, hvalue⟩ := List.mem_filterMap.mp hmem
  obtain ⟨message, -, rfl⟩ := Option.map_eq_some_iff.mp hvalue
  exact ⟨message, rfl⟩

namespace BridgeWorld

variable {v : Service} {w w' : BridgeWorld} {e : BridgeEvent} {t more : List BridgeEvent} {n : Nat}
  {root : Path} {options : SessionOptions} {checkouts : Checkouts}

/-- Who is closing sessions: handlers, and in the end the bridge itself. -/
def held (w : BridgeWorld) : Option Nat → Option Eviction
  | some n => (w.bridge.handlers[n]?).join.bind fun h : Handler ↦ h.phase.eviction?
  | none => match w.bridge.phase with
    | .closing e => some e
    | _ => none

/-- The sessions, and who is closing some of them. -/
def custody (w : BridgeWorld) : Custody (Option Nat) := ⟨w.sessions, w.held⟩

/-- What is true of the sessions and the handlers of a bridge. -/
structure Orderly (w : BridgeWorld) : Prop where
  sound : w.custody.Sound
  proper : ∀ (n : Nat) (h : Handler), w.bridge.handlers[n]? = some (some h) → h.phase.Proper
  /-- Once the input has ended, there are no handlers, and no sessions to hand out. -/
  ended : w.bridge.phase ≠ .serving →
    (∀ (n : Nat) (h : Handler), w.bridge.handlers[n]? ≠ some (some h)) ∧ w.sessions.table = []

/-- A session that a handler was closing when it was given up. -/
def Forsaken (t : List BridgeEvent) (n : Nat) : Prop :=
  ∃ handlers, ∃ h : Handler, ∃ e x, .gaveUp handlers ∈ t ∧ some h ∈ handlers ∧ h.phase.eviction? = some e ∧
    (n, x) ∈ e.closings ∧ x ≠ .over

theorem Forsaken.of_subset (h : Forsaken t n) (hsub : t ⊆ more) : Forsaken more n := by
  obtain ⟨handlers, h, e, x, hgave, hrest⟩ := h
  exact ⟨handlers, h, e, x, hsub hgave, hrest⟩

theorem Forsaken.mono (h : Forsaken t n) (more : List BridgeEvent) : Forsaken (t ++ more) n :=
  h.of_subset (List.subset_append_left ..)

theorem Forsaken.last (h : Forsaken [e] n) (t : List BridgeEvent) : Forsaken (t ++ [e]) n :=
  h.of_subset (List.subset_append_right ..)

/-! ### Steps -/

theorem custody_eq {r : Sessions} {held : Option Nat → Option Eviction} (hs : w.sessions = r)
    (hheld : ∀ i, w.held i = held i) : w.custody = ⟨r, held⟩ := by
  rw [custody, hs, funext hheld]

/-- A handler that goes on, or is over, closes other sessions afterwards. -/
theorem held_set (after : Option Handler) {b : Bridge} {k : Nat} {h : Handler}
    (hk : w.bridge.handlers[k]? = some (some h)) (hphase : b.phase = w.bridge.phase)
    (hhandlers : b.handlers = w.bridge.handlers.set k after) (i : Option Nat) :
    held { w with bridge := b } i =
      Function.update w.held (some k) (after.bind fun h ↦ h.phase.eviction?) i := by
  rw [Function.update_apply]
  cases i with
  | none => simp only [held, hphase, reduceCtorEq, if_false]
  | some m =>
    simp only [held, hhandlers, Option.some.injEq]
    split
    · rename_i heq
      subst heq
      rw [List.getElem?_set_self (List.getElem?_eq_some_iff.mp hk).1]
      rfl
    · rename_i hne
      rw [List.getElem?_set_ne fun heq ↦ hne heq.symm]

/-- What a turn of a handler is for those who close sessions. -/
theorem custody_of_handlerTurn {strand : Nat} {news : HandlerNews} {b : Bridge} (horderly : w.Orderly)
    (h : w.bridge.handlerTurn v w.now n strand news = .moved () b) :
    w.custody.Step (custody { w with bridge := b }) ∧ Orderly { w with bridge := b } := by
  simp only [Bridge.handlerTurn] at h
  split at h
  · cases h
  · rename_i handler hjoin
    have hn : w.bridge.handlers[n]? = some (some handler) := Option.join_eq_some_iff.mp hjoin
    have hproper := horderly.proper n handler hn
    have hserving : w.bridge.phase = .serving := by
      by_contra hended
      exact (horderly.ended hended).1 n handler hn
    have hheld : w.held (some n) = handler.phase.eviction? := by simp [held, hn]
    -- The handler goes on, or is over.
    have hset : ∀ (after : Option Handler) (b : Bridge), b.phase = w.bridge.phase →
        b.handlers = w.bridge.handlers.set n after →
        HandlerPhase.Does False w.now strand w.bridge.state handler.phase (after.map Handler.phase) b.state →
        w.custody.Step (custody { w with bridge := b }) ∧ Orderly { w with bridge := b } := by
      intro after b hphase hhandlers hdoes
      have hstep : w.custody.Step (custody { w with bridge := b }) := by
        have hcustody : custody { w with bridge := b } = ⟨b.state.sessions,
            Function.update w.held (some n) (after.bind fun h ↦ h.phase.eviction?)⟩ :=
          custody_eq rfl (held_set after hn hphase hhandlers)
        have hstep := hdoes.custody hheld
        rw [Option.bind_map] at hstep
        rw [hcustody]
        exact hstep
      refine ⟨hstep, horderly.sound.step hstep, fun m h' hm ↦ ?_,
        fun hended ↦ absurd (hphase.trans hserving) hended⟩
      simp only [hhandlers] at hm
      rcases (getElem?_set_eq_some hn).mp hm with ⟨-, heq⟩ | ⟨-, hm⟩
      · exact hdoes.proper (heq ▸ rfl)
      · exact horderly.proper m h' hm
    split at h
    · cases h
    · rename_i h' s hturn
      obtain ⟨-, rfl⟩ := Turn.moved.inj h
      exact hset (some h') _ rfl rfl (Handler.does_of_moved False hturn (Or.inr hproper))
    · rename_i reply s hturn
      obtain ⟨-, rfl⟩ := Turn.moved.inj h
      exact hset none _ rfl rfl (Handler.does_of_finished False hturn (Or.inr hproper))

/-- What a turn of the bridge, which closes the last sessions, is for those who close sessions. -/
theorem custody_of_closeTurn {strand : Nat} {b : Bridge} (horderly : w.Orderly)
    (h : w.bridge.closeTurn w.now strand = .moved () b) :
    w.custody.Step (custody { w with bridge := b }) ∧ Orderly { w with bridge := b } := by
  simp only [Bridge.closeTurn] at h
  split at h
  · rename_i e hphase
    obtain ⟨hhandlers, hempty⟩ := horderly.ended (by simp [hphase])
    have hheld : w.held none = some e := by simp only [held, hphase]
    have hupdate : ∀ (x : Option Eviction) (b : Bridge), b.handlers = w.bridge.handlers →
        held { w with bridge := b } none = x →
        ∀ i, held { w with bridge := b } i = Function.update w.held none x i := by
      intro x b hb hx i
      cases i with
      | none => rw [Function.update_self, hx]
      | some i => simp only [held, hb, ne_eq, reduceCtorEq, not_false_eq_true, Function.update_of_ne]
    have hset : ∀ (x : Option Eviction) (b : Bridge), b.handlers = w.bridge.handlers →
        held { w with bridge := b } none = x → w.sessions.SameShelf b.state.sessions →
        w.custody.Step ⟨b.state.sessions, Function.update w.held none x⟩ →
        w.custody.Step (custody { w with bridge := b }) ∧ Orderly { w with bridge := b } := by
      intro x b hb hx hshelf hstep
      have hcustody : custody { w with bridge := b } =
          ⟨b.state.sessions, Function.update w.held none x⟩ := custody_eq rfl (hupdate x b hb hx)
      rw [← hcustody] at hstep
      refine ⟨hstep, horderly.sound.step hstep, ?_, fun _ ↦ ⟨?_, hshelf.table.trans hempty⟩⟩
      · exact fun n h hn ↦ absurd (hb ▸ hn) (hhandlers n h)
      · exact fun n h hn ↦ hhandlers n h (hb ▸ hn)
    cases hturn : e.turn w.bridge.state.fs w.now strand w.bridge.state.sessions with
    | parked =>
      rw [hturn] at h
      cases h
    | moved e' r =>
      rw [hturn] at h
      obtain ⟨-, rfl⟩ := Turn.moved.inj h
      obtain ⟨m, c, c', -, hstep, -⟩ := Eviction.turn_eq_moved hturn
      exact hset (some e') _ rfl rfl (.of_closingStep hstep) (.closes hheld hturn)
    | finished any r =>
      rw [hturn] at h
      obtain ⟨-, rfl⟩ := Turn.moved.inj h
      obtain ⟨m, c, -, hstep, -⟩ := Eviction.turn_eq_finished hturn
      exact hset none _ rfl rfl (.of_closingStep hstep) (.closed hheld hturn)
  · cases h

/-- Messages that arrive change nothing for those who close sessions. -/
theorem held_append {values : List Json} {i : Nat} :
    ((w.bridge.handlers ++ Bridge.handlersOf values)[i]?).join.bind (fun h : Handler ↦ h.phase.eviction?) =
      w.held (some i) := by
  simp only [held]
  rcases Nat.lt_or_ge i w.bridge.handlers.length with hlt | hge
  · rw [List.getElem?_append_left hlt]
  · rw [List.getElem?_append_right hge, List.getElem?_eq_none hge]
    cases hx : (Bridge.handlersOf values)[i - w.bridge.handlers.length]? with
    | none => rfl
    | some x =>
      obtain ⟨message, rfl⟩ := Bridge.exists_begin (List.mem_of_getElem? hx)
      rfl

theorem custody_accept (w : BridgeWorld) (bytes rest : List UInt8) :
    custody { w with bridge := Bridge.accept { w.bridge with input := rest } bytes } = w.custody := by
  refine custody_eq rfl fun i ↦ ?_
  cases i with
  | none => rfl
  | some i => exact held_append

/-- Every step uses sessions, takes them out, or closes them further, but for the one that gives handlers
up. -/
theorem custody_of_step (horderly : w.Orderly) (h : Step v w .other w') :
    w.custody.Step w'.custody ∧ w'.Orderly := by
  have hsame : w'.custody = w.custody → w'.bridge.handlers = w.bridge.handlers →
      w'.bridge.phase = w.bridge.phase → w.custody.Step w'.custody ∧ w'.Orderly := by
    intro hcustody hhandlers hphase
    have hsessions : w'.sessions = w.sessions := congrArg Custody.sessions hcustody
    refine ⟨hcustody ▸ .settles (.refl _), hcustody ▸ horderly.sound, ?_, ?_⟩
    · rw [hhandlers]
      exact horderly.proper
    · rw [hphase, hhandlers, hsessions]
      exact horderly.ended
  cases h with
  | send | hangUp | change | pass => exact hsame rfl rfl rfl
  | read hinput h =>
    simp only [Bridge.readTurn] at h
    split at h
    · rename_i hserving
      obtain rfl := Option.some.inj h
      have hcustody := w.custody_accept (w.bridge.input.take Bridge.readSize)
        (w.bridge.input.drop Bridge.readSize)
      refine ⟨hcustody ▸ .settles (.refl _), hcustody ▸ horderly.sound, fun n h hn ↦ ?_,
        fun hended ↦ absurd hserving hended⟩
      rcases List.mem_append.mp (List.mem_of_getElem? hn) with hold | hnew
      · obtain ⟨k, hk⟩ := List.getElem?_of_mem hold
        exact horderly.proper k h hk
      · obtain ⟨message, heq⟩ := Bridge.exists_begin hnew
        obtain rfl := Option.some.inj heq
        exact True.intro
    · cases h
  | turn h => exact custody_of_handlerTurn horderly h
  | close h => exact custody_of_closeTurn horderly h
  | write h =>
    simp only [Bridge.writeTurn] at h
    split at h
    · obtain rfl := Option.some.inj h
      exact hsame rfl rfl rfl
    · split at h
      · rename_i hphase
        obtain rfl := Option.some.inj h
        have hcustody : custody { w with bridge := { w.bridge with phase := .ended } } = w.custody := by
          refine custody_eq rfl fun i ↦ ?_
          cases i with
          | none => simp only [held, hphase]
          | some i => rfl
        exact ⟨hcustody ▸ .settles (.refl _), hcustody ▸ horderly.sound, horderly.proper,
          fun _ ↦ horderly.ended (by simp [hphase])⟩
      · cases h
  | inside h hbroken =>
    have hstep : w.custody.Step ⟨_, w.held⟩ := .settles (.of_background h hbroken)
    have htable := (Sessions.SameShelf.of_background h).table
    refine ⟨hstep, horderly.sound.step hstep, horderly.proper, fun hended ↦ ?_⟩
    obtain ⟨hhandlers, hempty⟩ := horderly.ended hended
    exact ⟨hhandlers, htable.trans hempty⟩

/-- What giving up the handlers is for those who close sessions: the sessions that are left in the table are
taken out. -/
theorem custody_of_giveUp {b : Bridge} (horderly : w.Orderly) (hinput : w.bridge.input = [])
    (h : w.bridge.readTurn = some b) :
    w.held none = none ∧ ∃ r, w.sessions.Settles r ∧
      (Custody.unheld (Option Nat) r).Step (custody { w with bridge := b }) ∧
        Orderly { w with bridge := b } := by
  simp only [Bridge.readTurn] at h
  split at h
  · rename_i hserving
    rw [hinput] at h
    simp only at h
    split at h
    · obtain rfl := Option.some.inj h
      obtain ⟨x, r, hbegin, hsessions, hhandlers, hphase⟩ := w.bridge.beginClosing_cases
      have hsettles := Bridge.settles_dropAll w.bridge.handlers w.bridge.state
      have hheld : ∀ i, held { w with bridge := w.bridge.beginClosing } i =
          Function.update (fun _ ↦ none) none x.getLeft? i := by
        intro i
        cases i with
        | none => cases x <;> simp only [held, hphase, Function.update_self] <;> rfl
        | some i =>
          simp only [held, hhandlers, ne_eq, reduceCtorEq, not_false_eq_true, Function.update_of_ne]
          rw [List.getElem?_map]
          cases w.bridge.handlers[i]? <;> rfl
      have hcustody : custody { w with bridge := w.bridge.beginClosing } =
          ⟨r, Function.update (fun _ ↦ none) none x.getLeft?⟩ := custody_eq hsessions hheld
      have hstep : (Custody.unheld (Option Nat) (Bridge.dropAll w.bridge.handlers w.bridge.state).sessions).Step
          (custody { w with bridge := w.bridge.beginClosing }) := by
        rw [hcustody]
        cases x with
        | inl e => exact .takes rfl hbegin
        | inr any =>
          have hnone : Function.update (fun _ : Option Nat ↦ (none : Option Eviction)) none none =
              fun _ ↦ none := Function.update_eq_self none _
          rw [Sum.getLeft?_inr, hnone]
          exact .takesAtOnce hbegin
      have hempty : r.table = [] := by
        have htable := ((Bridge.dropAll w.bridge.handlers w.bridge.state).sessions.table_evict .all).1
        rwa [hbegin] at htable
      have hnobody : ∀ (n : Nat) (h : Handler), w.bridge.beginClosing.handlers[n]? ≠ some (some h) := by
        intro n h hn
        rw [hhandlers] at hn
        obtain ⟨x, -, hx⟩ := List.mem_map.mp (List.mem_of_getElem? hn)
        cases hx
      refine ⟨by simp only [held, hserving], _, hsettles, hstep, ?_, fun n h hn ↦ absurd hn (hnobody n h),
        fun _ ↦ ⟨hnobody, ?_⟩⟩
      · exact (horderly.sound.abandon hsettles).step hstep
      · rw [← hempty, ← hsessions]
        rfl
    · cases h
  · cases h

/-! ### Runs -/

/-- What is true of a bridge after a run: every session is kept by somebody, or closed, or forsaken. -/
structure Kept (t : List BridgeEvent) (w : BridgeWorld) : Prop where
  orderly : w.Orderly
  placed : ∀ n, n < w.sessions.all.length → Forsaken t n ∨ w.custody.Placed n

/-- Who was closing a session when handlers were given up, was one of them. -/
theorem forsaken_of_isClosing (h : w.custody.IsClosing n) (hheld : w.held none = none) :
    Forsaken [.gaveUp w.bridge.handlers] n := by
  obtain ⟨i, e, x, hi, hmem, hx⟩ := h
  cases i with
  | none => exact absurd (hheld.symm.trans hi) nofun
  | some i =>
    obtain ⟨h, hjoin, he⟩ := Option.bind_eq_some_iff.mp hi
    have hh : w.bridge.handlers[i]? = some (some h) := Option.join_eq_some_iff.mp hjoin
    exact ⟨_, h, e, x, List.mem_singleton.mpr rfl, List.mem_of_getElem? hh, he, hmem, hx⟩

theorem Kept.step (h : Kept t w) (hstep : Step v w e w') : Kept (t ++ [e]) w' := by
  have horderly := h.orderly
  cases e with
  | other =>
    obtain ⟨hcustody, horderly'⟩ := custody_of_step horderly hstep
    refine ⟨horderly', fun n hn ↦ ?_⟩
    by_cases hlt : n < w.sessions.all.length
    · exact (h.placed n hlt).imp (·.mono [.other]) (·.step horderly.sound hlt hcustody)
    · exact Or.inr (Custody.placed_of_made horderly.sound hcustody (Nat.not_lt.mp hlt) hn)
  | gaveUp handlers =>
    cases hstep with
    | giveUp hinput hread =>
      obtain ⟨hheld, r, hsettles, hcustody, horderly'⟩ := custody_of_giveUp horderly hinput hread
      have hsound := horderly.sound.abandon hsettles
      have hplaced : ∀ n, n < r.all.length →
          Forsaken (t ++ [.gaveUp w.bridge.handlers]) n ∨ (Custody.unheld (Option Nat) r).Placed n := by
        intro n hn
        by_cases hlt : n < w.sessions.all.length
        · rcases h.placed n hlt with hforsaken | hplaced
          · exact Or.inl (hforsaken.mono _)
          · exact (hplaced.abandon horderly.sound hlt hsettles).imp_left
              fun hclosing ↦ (forsaken_of_isClosing hclosing hheld).last t
        · have hoffers := hsettles.offers horderly.sound.keys n hn fun h ↦ absurd h hlt
          exact Or.inr (hoffers.imp_right Or.inr)
      refine ⟨horderly', fun n hn ↦ ?_⟩
      by_cases hlt : n < r.all.length
      · exact (hplaced n hlt).imp_right (·.step hsound hlt hcustody)
      · exact Or.inr (Custody.placed_of_made hsound hcustody (Nat.not_lt.mp hlt) hn)

theorem kept_of_run (h : Run (Step v) (create root options checkouts) t w) : Kept t w := by
  refine h.invariant (P := Kept) ?_ fun _ _ _ _ _ h hstep ↦ h.step hstep
  refine ⟨⟨Custody.sound_none root options _ fun i ↦ ?_, fun n h hn ↦ ?_, fun hended ↦ absurd rfl hended⟩,
    fun n hn ↦ absurd hn (Nat.not_lt_zero n)⟩
  · cases i <;> rfl
  · simp [create, Bridge.opening] at hn

/-- A step that closes a session which has a server, though its handshake has not failed. -/
def Leaves (n : Nat) (u u' : BridgeWorld) : Prop :=
  ∃ s s' c, u.session? n = some s ∧ s.state ≠ .closed ∧ s.client = some c ∧
    u'.session? n = some s' ∧ s'.state = .closed ∧ ∀ e, s'.handshake ≠ .ended (.error e)

/-- A session that a step closes parts from its server. -/
theorem parted_of_leaves (horderly : w.Orderly) (hstep : Step v w e w') (h : Leaves n w w') :
    w'.custody.Parted n := by
  obtain ⟨s, s', c, hs, hopen, hc, hs', hclosed, hfine⟩ := h
  cases e with
  | other =>
    have hcustody := (custody_of_step horderly hstep).1
    rcases Custody.parted_of_step horderly.sound hcustody hs hopen hc hs' hclosed with ⟨e, he⟩ | hparted
    · exact absurd he (hfine e)
    · exact hparted
  | gaveUp handlers =>
    cases hstep with
    | giveUp hinput hread =>
      obtain ⟨-, r, hsettles, hcustody, -⟩ := custody_of_giveUp horderly hinput hread
      have hsound := horderly.sound.abandon hsettles
      have hbased := horderly.sound.based n s hs
      obtain ⟨y, hy, hkeeps⟩ := hsettles.keeps n s hs hbased
      obtain ⟨c', hc', -⟩ := hkeeps.client c hc
      by_cases hclosed' : y.state = .closed
      · -- Giving the handlers up has closed it.
        obtain ⟨x, hx, hkeeps'⟩ := hcustody.keeps.keeps n y hy hkeeps.based
        obtain rfl := Option.some.inj (hx.symm.trans hs')
        rcases hsettles.quits n s y hs hy hbased hopen hclosed' c hc with ⟨d, hd, hdone⟩ | ⟨e, he⟩
        · have hparted : (Custody.unheld (Option Nat) r).Parted n :=
            ⟨y, d, hy, hclosed', hd, Or.inl (Or.inl hdone)⟩
          exact hparted.step hsound hcustody
        · exact absurd (hkeeps'.ended _ he) (hfine e)
      · rcases Custody.parted_of_step hsound hcustody hy hclosed' hc' hs' hclosed with ⟨e, he⟩ | hparted
        · exact absurd he (hfine e)
        · exact hparted

/-- A session that has parted from its server stays so, unless it was being closed when handlers were given
up. -/
theorem parted_of_run {u : BridgeWorld} (horderly : u.Orderly) (hparted : u.custody.Parted n)
    (h : Run (Step v) u more w) : w.Orderly ∧ (Forsaken more n ∨ w.custody.Parted n) := by
  refine h.invariant (P := fun more w ↦ w.Orderly ∧ (Forsaken more n ∨ w.custody.Parted n))
    ⟨horderly, Or.inr hparted⟩ fun t w e w' _ ⟨horderly, hleft⟩ hstep ↦ ?_
  cases e with
  | other =>
    obtain ⟨hcustody, horderly'⟩ := custody_of_step horderly hstep
    exact ⟨horderly', hleft.imp (·.mono _) (·.step horderly.sound hcustody)⟩
  | gaveUp handlers =>
    cases hstep with
    | giveUp hinput hread =>
      obtain ⟨hheld, r, hsettles, hcustody, horderly'⟩ := custody_of_giveUp horderly hinput hread
      refine ⟨horderly', ?_⟩
      rcases hleft with hforsaken | hparted
      · exact Or.inl (hforsaken.mono _)
      · exact (hparted.abandon horderly.sound hsettles).imp
          (fun hclosing ↦ (forsaken_of_isClosing hclosing hheld).last t)
          (·.step (horderly.sound.abandon hsettles) hcustody)

/-- Nobody closes sessions when the bridge has ended. -/
theorem Orderly.held_eq_none (h : w.Orderly) (hended : w.bridge.phase = .ended) (i : Option Nat) :
    w.held i = none := by
  cases i with
  | none => simp only [held, hended]
  | some i =>
    cases hjoin : (w.bridge.handlers[i]?).join with
    | none => simp only [held, hjoin, Option.bind_none]
    | some handler =>
      exact absurd (Option.join_eq_some_iff.mp hjoin) ((h.ended (by simp [hended])).1 i handler)

theorem phase_of_isEnded (hended : w.bridge.isEnded = true) : w.bridge.phase = .ended := by
  simp only [Bridge.isEnded] at hended
  split at hended
  · assumption
  · cases hended

/-- When the bridge has ended, every session is closed that was not forsaken. -/
theorem isClosed_of_ended (h : Run (Step v) (create root options checkouts) t w)
    (hended : w.bridge.isEnded = true) (hn : n < w.sessions.all.length) :
    Forsaken t n ∨ w.sessions.IsClosed n := by
  have hphase := phase_of_isEnded hended
  obtain ⟨horderly, hplaced⟩ := kept_of_run h
  refine (hplaced n hn).imp_right ?_
  rintro (⟨key, hmem⟩ | ⟨i, e, hi, -⟩ | hclosed)
  · have htable : w.sessions.table = [] := (horderly.ended (by simp [hphase])).2
    have hmem : (key, n) ∈ w.sessions.table := hmem
    rw [htable] at hmem
    cases hmem
  · cases (horderly.held_eq_none hphase i).symm.trans hi
  · exact hclosed

/-- When the bridge has ended, every session is closed, and every server that could still be told when its
session was closed was told to exit, but for sessions that handlers were closing when they were given up. -/
theorem closed_of_ended (h : Run (Step v) (create root options checkouts) t w)
    (hended : w.bridge.isEnded = true) (hn : n < w.sessions.all.length) :
    Forsaken t n ∨ ∃ s, w.session? n = some s ∧ s.state = .closed ∧
      ∀ u e u', Through (Step v) (create root options checkouts) t w u e u' → Leaves n u u' →
        ∃ c, s.client = some c ∧ c.Dismissed := by
  by_cases hforsaken : Forsaken t n
  · exact Or.inl hforsaken
  obtain ⟨s, hs, hclosed⟩ := (isClosed_of_ended h hended hn).resolve_left hforsaken
  refine Or.inr ⟨s, hs, hclosed, fun u e u' ⟨before, after, ht, hbefore, hstep, hafter⟩ hleaves ↦ ?_⟩
  have hkept := kept_of_run hbefore
  have hparted := parted_of_leaves hkept.orderly hstep hleaves
  obtain ⟨horderly, hleft | hparted⟩ := parted_of_run (hkept.step hstep).orderly hparted hafter
  · subst ht
    exact absurd (hleft.of_subset fun x hx ↦ by simp [hx]) hforsaken
  · obtain ⟨x, c, hx, -, hc, hdismissed⟩ := hparted
    obtain rfl := Option.some.inj (hs.symm.trans hx)
    refine ⟨c, hc, hdismissed.resolve_right ?_⟩
    rintro ⟨i, e, note, hi, -⟩
    cases (horderly.held_eq_none (phase_of_isEnded hended) i).symm.trans hi

/-! ### Examples -/

/-- The frame of a request about a repository. -/
def requestFrame (name : String) (fields : List (String × Json)) : List UInt8 :=
  (Frame.encode <| .ofFields [("messageName", .string name),
    ("userInfo", .ofFields ([("resource", .string "h"), ("slug", .string "a/b")] ++ fields))]).getD []

/-- What a server writes that answers the request with the number of a digit. -/
def answer (digit : UInt8) : List UInt8 :=
  [67, 111, 110, 116, 101, 110, 116, 45, 76, 101, 110, 103, 116, 104, 58, 32, 56, 13, 10, 13, 10, 123,
    34, 105, 100, 34, 58, digit, 125]

/-- A page opens a file, and gets its outline. -/
def outlineMoves : List BridgeMove :=
  [.send (requestFrame "didOpen" [("filepath", .string "m.c"), ("text", .string "int m;")]), .read, .go 0,
    .go 0, .go 0, .inside (.launch 0), .inside (.launched 0), .inside (.shake 0),
    .inside (.serve 0 (answer 49)), .inside (.read 0), .inside (.shake 0), .go 0, .go 0, .go 0, .go 0,
    .go 0, .inside (.serve 0 (answer 50)), .inside (.read 0), .go 0]

/-- The browser hangs up, and the server answers the request to shut down. -/
def hangUpMoves : List BridgeMove :=
  outlineMoves ++ [.hangUp, .read, .close 0, .close 0, .inside (.serve 0 (answer 51)), .inside (.read 0)]

/-- The browser asks for the session to be closed, and hangs up while it is being closed. -/
def cutMoves : List BridgeMove :=
  outlineMoves ++ [.send (requestFrame "exit" []), .read, .go 1, .go 1, .hangUp, .read, .write, .write]

/-- No handler that was given up was closing sessions. -/
def BridgeEvent.sparesSessions : BridgeEvent → Bool
  | .gaveUp handlers => handlers.all (·.all (·.phase.eviction?.isNone))
  | .other => true

/-- A handshake has succeeded. -/
def Handshake.succeeded : Handshake → Bool
  | .ended (.ok ()) => true
  | _ => false

/-- A message has another method than that of the last one to a server. -/
def leavesOpen (message : Json) : Bool :=
  match message.field? "method" with
  | some (.string method) => method != "exit"
  | _ => false

/-- When the browser hangs up while no session is being closed, the server is told to exit. -/
theorem dismissed_hungUp : ∃ t w s c,
    Run (Step ⟨⟨⟨"/c"⟩, "", [], none⟩, ⟨⟨"/s"⟩, .usual⟩, 0⟩) (create ⟨"/c"⟩ default ⟨⟨[]⟩, .none, .empty⟩) t
      w ∧ w.bridge.isEnded = true ∧ 0 < w.sessions.all.length ∧ ¬ Forsaken t 0 ∧ w.session? 0 = some s ∧
        s.state = .closed ∧ s.client = some c ∧ Client.noteMessage "exit" .null ∈ c.wire.written := by
  obtain ⟨t, u, e, u', w, hthrough, hcheck⟩ := exists_through_of_play
    (move ⟨⟨⟨"/c"⟩, "", [], none⟩, ⟨⟨"/s"⟩, .usual⟩, 0⟩) (fun _ _ _ _ ↦ step_of_move)
    (create ⟨"/c"⟩ default ⟨⟨[]⟩, .none, .empty⟩) hangUpMoves (.close 0) [.close 0, .write, .write]
    (fun t u u' w ↦ w.bridge.isEnded && t.all BridgeEvent.sparesSessions &&
      (u.session? 0).any (fun s : Session ↦ decide (s.state = .running) && s.client.isSome) &&
      (u'.session? 0).any (fun s : Session ↦ decide (s.state = .closed) && Handshake.succeeded s.handshake) &&
      (w.session? 0).any (fun s : Session ↦ s.client.all fun c : Client ↦ !c.closed && c.wire.accepts)) (by decide +kernel)
  simp only [Bool.and_eq_true] at hcheck
  obtain ⟨⟨⟨⟨hended, hgave⟩, hbefore⟩, hafter⟩, hfinal⟩ := hcheck
  obtain ⟨s₀, hs₀, hbefore⟩ := (Option.any_eq_true ..).mp hbefore
  obtain ⟨s₁, hs₁, hafter⟩ := (Option.any_eq_true ..).mp hafter
  obtain ⟨s₂, hs₂, hfinal⟩ := (Option.any_eq_true ..).mp hfinal
  simp only [Bool.and_eq_true, decide_eq_true_eq] at hbefore hafter
  obtain ⟨c₀, hc₀⟩ := Option.isSome_iff_exists.mp hbefore.2
  have hleaves : Leaves 0 u u' := by
    refine ⟨s₀, s₁, c₀, hs₀, by simp [hbefore.1], hc₀, hs₁, hafter.1, fun e he ↦ ?_⟩
    rw [he] at hafter
    cases hafter.2
  have hlt : 0 < w.sessions.all.length := Sessions.lt_of_session? hs₂
  have hspared : ¬ Forsaken t 0 := by
    rintro ⟨handlers, h, x, y, hmem, hh, hx, -⟩
    have hnone := List.all_eq_true.mp (List.all_eq_true.mp hgave _ hmem) _ hh
    simp [hx] at hnone
  obtain ⟨s, hs, hclosed, htold⟩ :=
    (closed_of_ended hthrough.run hended hlt).resolve_left hspared
  obtain ⟨c, hc, hdismissed⟩ := htold u e u' hthrough hleaves
  obtain rfl := Option.some.inj (hs.symm.trans hs₂)
  rw [hc] at hfinal
  simp only [Option.all_some, Bool.and_eq_true, Bool.not_eq_true'] at hfinal
  refine ⟨t, w, s, c, hthrough.run, hended, hlt, hspared, hs, hclosed, hc, ?_⟩
  rcases hdismissed with hlost | hbroken | hwritten
  · exact absurd (hlost.symm.trans hfinal.1) (by simp)
  · exact absurd (hbroken.symm.trans hfinal.2) (by simp)
  · exact hwritten

/-- When the browser hangs up while a handler is closing a session, the session stays open, and its server
goes on and was never told to exit. -/
theorem exists_forsaken : ∃ t w s c,
    Run (Step ⟨⟨⟨"/c"⟩, "", [], none⟩, ⟨⟨"/s"⟩, .usual⟩, 0⟩) (create ⟨"/c"⟩ default ⟨⟨[]⟩, .none, .empty⟩) t
      w ∧ w.bridge.isEnded = true ∧ Forsaken t 0 ∧ w.session? 0 = some s ∧ s.state = .running ∧
        s.client = some c ∧ c.closed = false ∧ Client.noteMessage "exit" .null ∉ c.wire.written := by
  obtain ⟨t, w, hrun, hcheck⟩ := exists_run_of_play
    (move ⟨⟨⟨"/c"⟩, "", [], none⟩, ⟨⟨"/s"⟩, .usual⟩, 0⟩) (fun _ _ _ _ ↦ step_of_move)
    (create ⟨"/c"⟩ default ⟨⟨[]⟩, .none, .empty⟩) cutMoves
    (fun _ w ↦ w.bridge.isEnded && (w.session? 0).any fun s : Session ↦ decide (s.state = .running) &&
      s.client.any fun c : Client ↦ !c.closed && c.wire.written.all leavesOpen) (by decide +kernel)
  simp only [Bool.and_eq_true] at hcheck
  obtain ⟨hended, hopen⟩ := hcheck
  obtain ⟨s, hs, hopen⟩ := (Option.any_eq_true ..).mp hopen
  simp only [Bool.and_eq_true, decide_eq_true_eq] at hopen
  obtain ⟨c, hc, htold⟩ := (Option.any_eq_true ..).mp hopen.2
  simp only [Bool.and_eq_true, Bool.not_eq_true'] at htold
  have hforsaken : Forsaken t 0 := by
    refine (isClosed_of_ended hrun hended (Sessions.lt_of_session? hs)).resolve_right ?_
    rintro ⟨x, hx, hclosed⟩
    obtain rfl := Option.some.inj (hs.symm.trans hx)
    cases hopen.1.symm.trans hclosed
  refine ⟨t, w, s, c, hrun, hended, hforsaken, hs, hopen.1, hc, htold.1, fun hmem ↦ ?_⟩
  cases List.all_eq_true.mp htold.2 _ hmem

end BridgeWorld

end CodeNav
