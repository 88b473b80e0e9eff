import CodeNav.Proofs.Browser.Checkouts
import CodeNav.Proofs.Server.Evolution

/-!
# What handlers do

Everything that a handler can do in a turn is said here once, by what it does to its call on a checkout,
to the sessions and to those that it has taken out. Later modules split on these cases and do not open
the turns of handlers themselves.

## Main definitions

* `HandlerPhase.eviction?`: the sessions that a handler has taken out and is closing
* `HandlerPhase.Proper`: a handler does not close the session on which it makes its calls
* `HandlerPhase.Does`: how a handler goes on, or is over
* `HandlerPhase.Advance`: how a handler goes on, seen from its call on a checkout

## Main statements

* `Handler.does_phaseTurn`: a turn of a handler does nothing else
* `HandlerPhase.Does.advance`, `HandlerPhase.Does.evolves`, `HandlerPhase.Does.proper`: what follows for
  its call, for the sessions, and for what it may do next
-/

namespace CodeNav

namespace HandlerPhase

/-- The sessions that a handler has taken out and is closing. -/
def eviction? : HandlerPhase → Option Eviction
  | synchronizing _ call e => match call.wants with
    | .invalidation _ => e
    | _ => none
  | removing call e => match call.wants with
    | .invalidation _ => e
    | _ => none
  | evicting _ e => some e
  | _ => none

/-- The calls that a handler makes on a session do not close it. -/
def Proper : HandlerPhase → Prop
  | calling _ _ phase rest => phase.closes = false ∧ ∀ call ∈ rest, call.closes = false
  | _ => True

variable {p p' : HandlerPhase} {k k' : CheckoutCall} {e : Option Eviction}

theorem eviction?_of_tells (hk : p.checkout? = some (k, e)) (h : k.Tells) : p.eviction? = e := by
  have hwants : k.wants = .invalidation k.key := h
  cases p with
  | synchronizing _ call | removing call =>
    obtain ⟨rfl, rfl⟩ := Prod.mk.inj (Option.some.inj hk)
    have hwants : call.wants = .invalidation _ := hwants
    simp only [eviction?, hwants]
  | _ => cases hk

theorem eviction?_of_not_tells (hk : p.checkout? = some (k, e)) (h : ¬ k.Tells) :
    p.eviction? = none := by
  have hwants : ∀ key, k.wants ≠ .invalidation key := fun key hwants ↦
    h (CheckoutCall.tells_of_wants hwants).1
  cases p with
  | synchronizing _ call | removing call =>
    obtain ⟨rfl, rfl⟩ := Prod.mk.inj (Option.some.inj hk)
    simp only [eviction?]
    split
    · rename_i key heq
      exact absurd heq (hwants key)
    · rfl
  | _ => cases hk

/-- A handler that has done nothing yet has taken out no sessions. -/
theorem Quiet.eviction? (h : p.Quiet) : p.eviction? = none := by
  cases p with
  | synchronizing | removing => exact eviction?_of_not_tells rfl h
  | arrived | loading | loaded => rfl
  | _ => cases h

theorem Quiet.proper (h : p.Quiet) : p.Proper := by
  cases p with
  | calling => cases h
  | _ => exact True.intro

theorem proper_of_checkout? (hk : p.checkout? = some (k, e)) : p.Proper := by
  cases p with
  | calling => cases hk
  | _ => exact True.intro

/-- A handler that is busy with other things than checkouts that change and sessions that are taken
out. -/
structure Aside (closing : Prop) (p : HandlerPhase) : Prop where
  quiet : ¬ p.Quiet
  checkout : p.checkout? = none
  eviction : p.eviction? = none
  proper : closing ∨ p.Proper

/-- A handler has used sessions, and goes on with other things. -/
structure Uses (closing : Prop) (r : Sessions) (after : Option HandlerPhase) (s' : ServiceState) :
    Prop where
  used : r.Used closing s'.sessions
  aside : ∀ p, after = some p → p.Aside closing

theorem Idle.aside (h : p.Idle) (closing : Prop) : p.Aside closing := by
  cases p with
  | inspecting | watching | locating | saving => exact ⟨id, rfl, rfl, Or.inr True.intro⟩
  | _ => cases h

/-- How a handler goes on, or is over: then nothing is left of it. -/
inductive Does (closing : Prop) (now strand : Nat) (s : ServiceState) (p : HandlerPhase) :
    Option HandlerPhase → ServiceState → Prop
  /-- Nothing has happened yet. -/
  | waits {p' : HandlerPhase} {s' : ServiceState} (hp : p.Quiet) (hp' : p'.Quiet)
      (hacting : p.Acting → p'.Acting) (hs : s'.sessions = s.sessions) :
      Does closing now strand s p (some p') s'
  /-- The checkout has changed. -/
  | changes {k k' : CheckoutCall} {e : Option Eviction} {p' : HandlerPhase} {s' : ServiceState}
      (hk : p.checkout? = some (k, e)) (hk' : p'.checkout? = some (k', none)) (h : k.Finishes k')
      (hacting : p.Acting → p'.Acting) (hs : s'.sessions = s.sessions) :
      Does closing now strand s p (some p') s'
  /-- The session of the repository is taken out, or goes on being closed. -/
  | tells {k : CheckoutCall} {e : Option Eviction} {e' : Eviction} {p' : HandlerPhase}
      {s' : ServiceState} (hk : p.checkout? = some (k, e)) (hk' : p'.checkout? = some (k, some e'))
      (htells : k.Tells)
      (hturn : Eviction.turnFor s.fs now k.key e s.sessions = .moved e' s'.sessions) :
      Does closing now strand s p (some p') s'
  /-- The session of the repository is closed. -/
  | told {k : CheckoutCall} {e : Option Eviction} {any : Bool} {after : Option HandlerPhase}
      {s' : ServiceState} (hk : p.checkout? = some (k, e)) (htells : k.Tells)
      (hturn : Eviction.turnFor s.fs now k.key e s.sessions = .finished any s'.sessions)
      (hafter : ∀ p', after = some p' → p'.Aside closing) : Does closing now strand s p after s'
  /-- Sessions are used, if anything is done to them. -/
  | acts {after : Option HandlerPhase} {s' : ServiceState} (hp : p.eviction? = none)
      (h : Uses closing s.sessions after s') : Does closing now strand s p after s'
  /-- Sessions are taken out because somebody asked for it. -/
  | evicts {call : EvictionCall} {one : Bool} {e : Eviction} {s' : ServiceState} (hp : p.Quiet)
      (hbegin : Eviction.begin call s.sessions = (.inl e, s'.sessions)) :
      Does closing now strand s p (some (.evicting one e)) s'
  | evictsAtOnce {call : EvictionCall} {any : Bool} {s' : ServiceState} (hp : p.Quiet)
      (hbegin : Eviction.begin call s.sessions = (.inr any, s'.sessions)) :
      Does closing now strand s p none s'
  | closes {one : Bool} {e e' : Eviction} {s' : ServiceState} (hp : p = .evicting one e)
      (hturn : e.turn s.fs now strand s.sessions = .moved e' s'.sessions) :
      Does closing now strand s p (some (.evicting one e')) s'
  | closed {one any : Bool} {e : Eviction} {s' : ServiceState} (hp : p = .evicting one e)
      (hturn : e.turn s.fs now strand s.sessions = .finished any s'.sessions) :
      Does closing now strand s p none s'

/-- How a handler goes on, seen from its call on a checkout. -/
inductive Advance (now : Nat) (s : ServiceState) (p p' : HandlerPhase) (s' : ServiceState) : Prop
  /-- Nothing has happened yet. -/
  | quiet (hp : p.Quiet) (hp' : p'.Quiet) (hacting : p.Acting → p'.Acting)
      (hs : s'.sessions = s.sessions)
  /-- The checkout has changed. -/
  | finishes {k k' : CheckoutCall} {e : Option Eviction} (hk : p.checkout? = some (k, e))
      (hk' : p'.checkout? = some (k', none)) (h : k.Finishes k') (hacting : p.Acting → p'.Acting)
      (hs : s'.sessions = s.sessions)
  /-- The session of the repository is taken out, or goes on being closed. -/
  | tells {k : CheckoutCall} {e : Option Eviction} {e' : Eviction} (hk : p.checkout? = some (k, e))
      (hk' : p'.checkout? = some (k, some e')) (htells : k.Tells)
      (hturn : Eviction.turnFor s.fs now k.key e s.sessions = .moved e' s'.sessions)
  /-- The handler is busy with other things. -/
  | aside (hp' : ¬ p'.Quiet) (hk' : p'.checkout? = none)

namespace Does

variable {closing : Prop} {now strand : Nat} {s s' : ServiceState} {after : Option HandlerPhase}

theorem advance (h : Does closing now strand s p (some p') s') : Advance now s p p' s' := by
  generalize hafter : some p' = after at h
  cases h with
  | waits hp hp' hacting hs =>
    obtain rfl := Option.some.inj hafter
    exact .quiet hp hp' hacting hs
  | changes hk hk' h hacting hs =>
    obtain rfl := Option.some.inj hafter
    exact .finishes hk hk' h hacting hs
  | tells hk hk' htells hturn =>
    obtain rfl := Option.some.inj hafter
    exact .tells hk hk' htells hturn
  | told _ _ _ haside =>
    obtain ⟨hquiet, hcheckout, -⟩ := haside p' hafter.symm
    exact .aside hquiet hcheckout
  | acts _ huses =>
    obtain ⟨hquiet, hcheckout, -⟩ := huses.aside p' hafter.symm
    exact .aside hquiet hcheckout
  | evicts | closes =>
    obtain rfl := Option.some.inj hafter
    exact .aside id rfl
  | evictsAtOnce | closed => cases hafter

theorem evolves (h : Does closing now strand s p after s') : s.sessions.Evolves s'.sessions := by
  cases h with
  | waits _ _ _ hs | changes _ _ _ _ hs =>
    rw [hs]
    exact .refl _
  | tells _ _ _ hturn => exact (Sessions.evolves_turnFor ..).moved hturn
  | told _ _ hturn => exact (Sessions.evolves_turnFor ..).finished hturn
  | acts _ huses => exact huses.used.evolves
  | @evicts call _ _ _ _ hbegin | @evictsAtOnce call _ _ _ hbegin =>
    have hevolves := s.sessions.evolves_evict call
    rwa [hbegin] at hevolves
  | closes _ hturn => exact (Sessions.evolves_evictionTurn ..).moved hturn
  | closed _ hturn => exact (Sessions.evolves_evictionTurn ..).finished hturn

/-- A handler that does not close the session on which it makes its calls does not do so later. -/
theorem proper (h : Does False now strand s p after s') (hafter : after = some p') : p'.Proper := by
  cases h with
  | waits _ hp' =>
    obtain rfl := Option.some.inj hafter
    exact hp'.proper
  | changes _ hk' | tells _ hk' =>
    obtain rfl := Option.some.inj hafter
    exact proper_of_checkout? hk'
  | told _ _ _ haside => exact (haside p' hafter).proper.resolve_left id
  | acts _ huses => exact (huses.aside p' hafter).proper.resolve_left id
  | evicts | closes =>
    obtain rfl := Option.some.inj hafter
    exact True.intro
  | evictsAtOnce | closed => cases hafter

end Does

end HandlerPhase

/-! ### The turns of handlers -/

namespace Handler

open HandlerPhase (ofCheckout Quiet Acting Aside Idles Uses Does)

variable {closing : Prop} {v : Service} {now strand : Nat} {news : HandlerNews} {name : String}
  {request : Request} {m : PageMessage} {r : Sessions} {s s' : ServiceState} {p p' : HandlerPhase}

/-- A handler that was busy with other things before uses sessions. -/
theorem Comes.acts {turn : HandlerTurn} (h : Comes (Uses closing s.sessions) turn)
    (hp : p.eviction? = none) : Comes (Does closing now strand s p) turn :=
  h.imp fun _ _ huses ↦ .acts hp huses

theorem Comes.idles {turn : HandlerTurn} (h : Comes (Idles s.sessions) turn)
    (hp : p.eviction? = none) : Comes (Does closing now strand s p) turn :=
  h.imp fun _ _ hidles ↦
    .acts hp ⟨.of_eq hidles.sessions, fun p' hp' ↦ (hidles.idle p' hp').aside closing⟩

/-- A turn that leaves sessions alone and ends. -/
theorem does_finished {reply : Reply} (hs : s'.sessions = s.sessions) (hp : p.eviction? = none) :
    Comes (Does closing now strand s p) (.finished reply s') :=
  (idles_finished hs).idles hp

/-! #### Turns that use sessions -/

theorem uses_moved (hused : r.Used closing s.sessions) (hp : p.Aside closing) :
    Comes (Uses closing r) (.moved p s) :=
  .moved ⟨hused, fun _ heq ↦ Option.some.inj heq ▸ hp⟩

theorem uses_makeCalls (n : Nat) {calls : List SessionCall} (last : SessionResult) {s : ServiceState}
    (hcalls : closing ∨ ∀ call ∈ calls, call.closes = false) (hused : r.Used closing s.sessions) :
    Comes (Uses closing r) (makeCalls name request n calls last s) := by
  induction calls generalizing last s with
  | nil => exact .finished ⟨hused, fun _ heq ↦ (by cases heq)⟩
  | cons call calls ih =>
    have hhead : closing ∨ call.closes = false := hcalls.imp_right fun h ↦ h _ List.mem_cons_self
    have htail : closing ∨ ∀ call ∈ calls, call.closes = false :=
      hcalls.imp_right fun h call hcall ↦ h call (List.mem_cons_of_mem _ hcall)
    have hbegun := hused.begun n hhead
    simp only [makeCalls]
    split <;> rename_i hbegin <;> rw [hbegin] at hbegun
    · refine uses_moved hbegun ⟨id, rfl, rfl, ?_⟩
      rcases hhead with hclosing | hhead
      · exact Or.inl hclosing
      · exact htail.imp_right fun htail ↦ ⟨Sessions.closes_eq_false_of_beginOn hbegin hhead, htail⟩
    · exact .finished ⟨hbegun, fun _ heq ↦ (by cases heq)⟩
    · exact ih _ htail hbegun

theorem uses_callExisting (repository : RepositoryArgs) {call : SessionCall} (s : ServiceState)
    (hcall : call.closes = false) :
    Comes (Uses closing s.sessions) (callExisting name request repository call s) := by
  simp only [callExisting]
  split
  · exact .finished ⟨.refl, fun _ heq ↦ (by cases heq)⟩
  · refine uses_makeCalls _ _ (Or.inr fun call' hcall' ↦ ?_) .refl
    exact List.mem_singleton.mp hcall' ▸ hcall

theorem uses_openDocument (d : DocumentArgs) (text : String) (settings : Settings)
    (s : ServiceState) :
    Comes (Uses closing s.sessions) (openDocument name request d text settings s) := by
  refine uses_makeCalls _ _ (Or.inr fun call hcall ↦ ?_) (Sessions.Used.refl.get d.repository.key)
  simp only [List.mem_cons, List.not_mem_nil, or_false] at hcall
  rcases hcall with rfl | rfl | rfl | rfl | rfl <;> rfl

/-! #### All turns -/

/-- Sessions are taken out. -/
theorem does_evict (one : Bool) (call : EvictionCall) (hp : p.Quiet) :
    Comes (Does closing now strand s p) (evict name one call s) := by
  simp only [evict]
  split
  · rename_i e r hbegin
    exact .moved (.evicts hp hbegin)
  · rename_i any r hbegin
    exact .finished (.evictsAtOnce hp hbegin)

/-- A call on a checkout begins. -/
theorem does_begin (request : Request) {order : CheckoutOrder} {k : CheckoutCall} {c : Checkouts}
    (hbegin : CheckoutOrder.begin v.sync order s.checkouts = (.inl k, c)) (hp : p.Quiet) :
    Does closing now strand s p (some (ofCheckout request (k, none))) (s.withCheckouts c) := by
  obtain ⟨htells, hidle⟩ := (CheckoutCall.begins_of_begin hbegin).not_tells
  refine .waits hp (HandlerPhase.quiet_ofCheckout.mpr htells) (fun _ k' e hk ↦ ?_) rfl
  rw [HandlerPhase.checkout?_ofCheckout] at hk
  obtain ⟨rfl, -⟩ := Prod.mk.inj (Option.some.inj hk)
  rw [hidle]
  nofun

/-- A synchronization begins, or is over at once. -/
theorem does_synchronize (url : String) (force : Bool) (settings : Settings) (hp : p.Quiet) :
    Comes (Does closing now strand s p) (synchronize v name request url force settings s) := by
  delta synchronize
  split
  · rename_i call c hbegin
    have horder : CheckoutOrder.begin v.sync (.synchronize url force settings.accessToken?) s.checkouts =
        (.inl (.sync call), c) := by
      simp [CheckoutOrder.begin, hbegin]
    exact .moved (does_begin request horder hp)
  · rename_i result c _
    have hidles : Comes (Idles s.sessions) (synchronized v name request result (s.withCheckouts c)) :=
      idles_synchronized result rfl
    exact hidles.idles hp.eviction?

/-- A request begins. -/
theorem does_start (request : Request) (hp : p.Quiet) :
    Comes (Does closing now strand s p) (start v now name request s) := by
  cases request <;> (delta start; dsimp only)
  case openPage | didOpen | settings | updateSettings | checkoutRepository =>
    exact .moved (.waits hp True.intro (fun _ ↦ HandlerPhase.acting_of_none rfl) rfl)
  case documentSymbol | shutdown => exact Comes.acts (uses_callExisting _ s rfl) hp.eviction?
  case hover | definition | references | documentHighlight =>
    exact Comes.acts (uses_callExisting _ s rfl) hp.eviction?
  case exit | reset => exact does_evict _ _ hp
  case repository url => exact (idles_inspect url rfl).idles hp.eviction?
  case deleteRepository url =>
    split
    · rename_i r c hbegin
      have horder : CheckoutOrder.begin v.sync (.remove url) s.checkouts = (.inl (.removal r), c) := by
        simp [CheckoutOrder.begin, hbegin]
      exact .moved (does_begin .reset horder hp)
    · exact does_finished rfl hp.eviction?
  case buildProgress a => exact (idles_watch a s).idles hp.eviction?

/-- The settings were read. -/
theorem does_settingsRead (request : Request) (settings : Except SettingsError Settings)
    (hp : p.Quiet) :
    Comes (Does closing now strand s p) (settingsRead v name request settings s) := by
  simp only [settingsRead]
  split
  · split
    · split
      · exact does_finished rfl hp.eviction?
      · exact does_synchronize _ _ _ hp
    · exact does_finished rfl hp.eviction?
  · exact (uses_openDocument _ _ _ s).acts hp.eviction?
  · exact does_synchronize _ _ _ hp
  · exact does_finished rfl hp.eviction?
  · split <;> exact Comes.idles (idles_moved rfl True.intro) hp.eviction?
  · exact does_finished rfl hp.eviction?

/-- A handler goes on with a call on a checkout. -/
theorem does_ofCheckout (request : Request) (k : CheckoutCall) (e : Option Eviction) :
    Comes (Does closing now strand s (ofCheckout request (k, e)))
      (phaseTurn v now strand news m (ofCheckout request (k, e)) s) := by
  have hcheckout := HandlerPhase.checkout?_ofCheckout request (k, e)
  rw [phaseTurn_ofCheckout]
  cases hturn : k.tellingTurn v.sync now news e s with
  | parked => exact .parked
  | finished x s' =>
    obtain ⟨-, ⟨hk, hs⟩ | ⟨hk, any, r, rfl, hword⟩⟩ := CheckoutCall.tellingTurn_eq_finished hturn
    · exact (idles_reported x hs).idles (HandlerPhase.eviction?_of_not_tells hcheckout hk)
    · exact (idles_reported x rfl).imp fun after s'' h ↦
        .told hcheckout hk (h.sessions ▸ hword) fun p' hp' ↦ (h.idle p' hp').aside closing
  | moved after s' =>
    obtain ⟨k', e'⟩ := after
    refine .moved ?_
    rcases CheckoutCall.tellingTurn_eq_moved hturn with
      ⟨hk, ⟨told, hmoves⟩, rfl, hs⟩ | ⟨hk, rfl, e₁, r, rfl, rfl, hword⟩
    · have hacting : (ofCheckout request (k, e)).Acting → (ofCheckout request (k', none)).Acting := by
        intro hacting k₁ e₁ hk₁
        rw [HandlerPhase.checkout?_ofCheckout] at hk₁
        obtain ⟨rfl, -⟩ := Prod.mk.inj (Option.some.inj hk₁)
        exact hmoves.action_ne (hacting k e hcheckout)
      by_cases hk' : k'.Tells
      · exact .changes hcheckout (HandlerPhase.checkout?_ofCheckout ..)
          (hmoves.finishes.2 hk') hacting hs
      · exact .waits (HandlerPhase.quiet_ofCheckout.mpr hk) (HandlerPhase.quiet_ofCheckout.mpr hk')
          hacting hs
    · exact .tells hcheckout (HandlerPhase.checkout?_ofCheckout ..) hk hword

/-- A turn of a handler does nothing else. -/
theorem does_phaseTurn (hp : closing ∨ p.Proper) :
    Comes (Does closing now strand s p) (phaseTurn v now strand news m p s) := by
  cases p with
  | arrived =>
    simp only [phaseTurn]
    split
    · exact does_finished rfl rfl
    · exact does_start _ True.intro
  | loading request =>
    simp only [phaseTurn]
    exact .moved (.waits True.intro True.intro (fun _ ↦ HandlerPhase.acting_of_none rfl) rfl)
  | loaded request settings =>
    simp only [phaseTurn]
    exact does_settingsRead request settings True.intro
  | calling request n phase rest =>
    have hphase : closing ∨ phase.closes = false := hp.imp_right And.left
    have hrest : closing ∨ ∀ call ∈ rest, call.closes = false := hp.imp_right And.right
    simp only [phaseTurn]
    cases hturn : s.sessions.turnOn s.fs now n phase with
    | parked => exact .parked
    | moved phase' r =>
      refine Comes.acts (uses_moved (Sessions.Used.refl.goes hphase hturn) ⟨id, rfl, rfl, ?_⟩) rfl
      rcases hphase with hclosing | hphase
      · exact Or.inl hclosing
      · exact hrest.imp_right fun hrest ↦
          ⟨Sessions.closes_eq_false_of_turnOn hturn hphase, hrest⟩
    | finished result r =>
      have hused : s.sessions.Used closing r := Sessions.Used.refl.ends hphase hturn
      cases result with
      | error e => exact .finished (.acts rfl ⟨hused, fun _ heq ↦ (by cases heq)⟩)
      | ok a => exact (uses_makeCalls n (.ok a) hrest hused).acts rfl
  | synchronizing request call e => exact does_ofCheckout request (.sync call) e
  | removing call e => exact does_ofCheckout .reset (.removal call) e
  | evicting one e =>
    simp only [phaseTurn]
    cases hturn : e.turn s.fs now strand s.sessions with
    | parked => exact .parked
    | moved e' r => exact .moved (.closes rfl hturn)
    | finished any r => exact .finished (.closed rfl hturn)
  | inspecting | watching | locating | saving => exact Comes.idles (idles_phaseTurn True.intro) rfl

/-- A handler that goes on. -/
theorem does_of_moved (closing : Prop) {h h' : Handler} (hturn : h.turn v now strand news s = .moved h' s')
    (hp : closing ∨ h.phase.Proper) : Does closing now strand s h.phase (some h'.phase) s' := by
  obtain ⟨phase, hphase, rfl⟩ := turn_eq_moved hturn
  have hcomes : Comes (Does closing now strand s h.phase) (.moved phase s') :=
    hphase ▸ does_phaseTurn hp
  cases hcomes with
  | moved hdoes => exact hdoes

/-- A handler that is over. -/
theorem does_of_finished (closing : Prop) {h : Handler} {reply : Reply}
    (hturn : h.turn v now strand news s = .finished reply s') (hp : closing ∨ h.phase.Proper) :
    Does closing now strand s h.phase none s' := by
  obtain ⟨unaddressed, hphase, -⟩ := turn_eq_finished hturn
  have hcomes : Comes (Does closing now strand s h.phase) (.finished unaddressed s') :=
    hphase ▸ does_phaseTurn hp
  cases hcomes with
  | finished hdoes => exact hdoes

end Handler

end CodeNav
