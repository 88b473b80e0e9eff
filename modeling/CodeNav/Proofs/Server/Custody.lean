import CodeNav.Proofs.Server.Settling

/-!
# Who keeps sessions

A session is kept by the table, from which it may be handed out, until somebody takes it out; from then on
it is kept by a call that is closing it, and when that call is over the session is closed. A call that is
given up before leaves its sessions as they are, and nobody closes them any more.

## Main definitions

* `Custody`: sessions, and those who are closing some of them
* `Custody.Step`: sessions are used, taken out, or closed further
* `Custody.Placed`: a session that somebody keeps, or that is closed
* `Custody.Parted`: a session that was closed, and whose server was told to exit, or is going to be
* `Custody.IsClosing`: a session that somebody is closing

## Main statements

* `Custody.Placed.step`, `Custody.placed_of_made`: every session is kept, or closed
* `Custody.parted_of_step`, `Custody.Parted.step`: a session that is closed parts from its server
* `Custody.Placed.abandon`, `Custody.Parted.abandon`: what is left when all calls are given up
-/

namespace CodeNav

/-! ### Those who close sessions -/

/-- Sessions, and those who are closing some of them. -/
structure Custody (ι : Type) where
  sessions : Sessions
  held : ι → Option Eviction

namespace Custody

variable {ι : Type} {k k' : Custody ι} {n : Nat} {s s' : Session} {c : Client}

/-- What is true of sessions and those who close them. -/
structure Sound (k : Custody ι) : Prop where
  based : ∀ n s, k.sessions.session? n = some s → s.Based
  keys : (k.sessions.table.map Prod.fst).Nodup
  lt : ∀ key n, (key, n) ∈ k.sessions.table → n < k.sessions.all.length
  closes : ∀ i e, k.held i = some e → e.Closes k.sessions

/-- A session that somebody keeps, or that is closed. -/
def Placed (k : Custody ι) (n : Nat) : Prop :=
  k.sessions.Offers n ∨ (∃ i e, k.held i = some e ∧ n ∈ e.closings.map Prod.fst) ∨
    k.sessions.IsClosed n

/-- Somebody is closing a session. -/
def IsClosing (k : Custody ι) (n : Nat) : Prop :=
  ∃ i e x, k.held i = some e ∧ (n, x) ∈ e.closings ∧ x ≠ .over

/-- Somebody is about to tell the server of a session to exit. -/
def Tells (k : Custody ι) (n : Nat) : Prop :=
  ∃ i e note, k.held i = some e ∧ (n, .going (.exiting note)) ∈ e.closings ∧
    note.message = Client.noteMessage "exit" .null

/-- A session that was closed, and whose server was told to exit, or is going to be. -/
def Parted (k : Custody ι) (n : Nat) : Prop :=
  ∃ s c, k.sessions.session? n = some s ∧ s.state = .closed ∧ s.client = some c ∧
    (c.Dismissed ∨ k.Tells n)

theorem sound_none (root : Path) (options : SessionOptions) (held : ι → Option Eviction)
    (hheld : ∀ i, held i = none) : Sound ⟨.none root options, held⟩ where
  based n s hs := by simp [Sessions.none, Sessions.session?] at hs
  keys := List.nodup_nil
  lt _ _ hmem := absurd hmem List.not_mem_nil
  closes i e hi := absurd ((hheld i).symm.trans hi) nofun

theorem Sound.exists_session (h : k.Sound) {key : RepositoryKey} (hmem : (key, n) ∈ k.sessions.table) :
    ∃ s, k.sessions.session? n = some s :=
  Sessions.exists_session? (h.lt key n hmem)

theorem Sound.of_keeps (h : k.Sound) (hkeeps : k.sessions.Keeps k'.sessions)
    (hcloses : ∀ i e, k'.held i = some e → e.Closes k'.sessions) : k'.Sound where
  based n s hs := by
    by_cases hlt : n < k.sessions.all.length
    · obtain ⟨s₀, hs₀⟩ := Sessions.exists_session? hlt
      obtain ⟨s', hs', hkept⟩ := hkeeps.keeps n s₀ hs₀ (h.based n s₀ hs₀)
      obtain rfl := Option.some.inj (hs'.symm.trans hs)
      exact hkept.based
    · exact hkeeps.made n s (Nat.not_lt.mp hlt) hs
  keys := hkeeps.evolves.keys h.keys
  lt key n hmem := by
    rcases hkeeps.evolves.table key n hmem with hmem | ⟨-, hlt⟩
    · exact Nat.lt_of_lt_of_le (h.lt key n hmem) hkeeps.evolves.size
    · exact hlt
  closes := hcloses

/-- A session that has parted from its server stays so, as long as those who tell servers go on. -/
theorem Parted.of_keeps (h : k.Parted n) (hsound : k.Sound) (hkeeps : k.sessions.Keeps k'.sessions)
    (htells : k.Tells n → k'.Tells n ∨ ∃ s c, k'.sessions.session? n = some s ∧ s.client = some c ∧
      c.Dismissed) : k'.Parted n := by
  obtain ⟨s, c, hs, hclosed, hc, hparted⟩ := h
  obtain ⟨s', hs', hkept⟩ := hkeeps.keeps n s hs (hsound.based n s hs)
  obtain ⟨c', hc', hclient⟩ := hkept.client c hc
  refine ⟨s', c', hs', hkept.closed hclosed, hc', ?_⟩
  rcases hparted with hdismissed | htold
  · exact Or.inl (hdismissed.of_keeps hclient)
  · rcases htells htold with htells | ⟨x, d, hx, hd, hdismissed⟩
    · exact Or.inr htells
    · obtain rfl := Option.some.inj (hs'.symm.trans hx)
      obtain rfl := Option.some.inj (hc'.symm.trans hd)
      exact Or.inl hdismissed

/-! ### Steps -/

section Steps

variable [DecidableEq ι]

/-- Sessions are used, taken out, or closed further. -/
inductive Step (k : Custody ι) : Custody ι → Prop
  | settles {r : Sessions} (h : k.sessions.Settles r) : Step k ⟨r, k.held⟩
  | takes {i : ι} {call : EvictionCall} {e : Eviction} {r : Sessions} (hi : k.held i = none)
      (h : Eviction.begin call k.sessions = (.inl e, r)) :
      Step k ⟨r, Function.update k.held i (some e)⟩
  | takesAtOnce {call : EvictionCall} {any : Bool} {r : Sessions}
      (h : Eviction.begin call k.sessions = (.inr any, r)) : Step k ⟨r, k.held⟩
  | closes {i : ι} {e e' : Eviction} {r : Sessions} {fs : FileSystem} {now strand : Nat}
      (hi : k.held i = some e) (h : e.turn fs now strand k.sessions = .moved e' r) :
      Step k ⟨r, Function.update k.held i (some e')⟩
  | closed {i : ι} {e : Eviction} {any : Bool} {r : Sessions} {fs : FileSystem} {now strand : Nat}
      (hi : k.held i = some e) (h : e.turn fs now strand k.sessions = .finished any r) :
      Step k ⟨r, Function.update k.held i none⟩

theorem update_eq_some {held : ι → Option Eviction} {i j : ι} {x : Option Eviction} {e : Eviction} :
    Function.update held i x j = some e ↔ j = i ∧ x = some e ∨ j ≠ i ∧ held j = some e := by
  rw [Function.update_apply]
  split <;> simp_all

theorem Step.keeps (h : Step k k') : k.sessions.Keeps k'.sessions := by
  cases h with
  | settles h => exact h.toKeeps
  | @takes _ call _ _ _ h | @takesAtOnce call _ _ h =>
    have hkeeps := Sessions.Keeps.evict k.sessions call
    rwa [h] at hkeeps
  | closes _ h =>
    obtain ⟨m, c, c', -, hstep, -⟩ := Eviction.turn_eq_moved h
    exact .closingStep hstep
  | closed _ h =>
    obtain ⟨m, c, -, hstep, -⟩ := Eviction.turn_eq_finished h
    exact .closingStep hstep

theorem Sound.step (h : k.Sound) (hstep : Step k k') : k'.Sound := by
  have hkeeps := hstep.keeps
  refine h.of_keeps hkeeps fun i e hi ↦ ?_
  have hlasting := hkeeps.evolves.closed
  have hsessions : ∀ key n, (key, n) ∈ k.sessions.table → ∃ s, k.sessions.session? n = some s :=
    fun _ _ ↦ h.exists_session
  cases hstep with
  | settles | takesAtOnce => exact (h.closes i e hi).of_closed hlasting
  | @takes j call _ _ hj hbegin =>
    rcases update_eq_some.mp hi with ⟨-, heq⟩ | ⟨-, hi⟩
    · obtain rfl := Option.some.inj heq
      exact (Eviction.closes_of_begin hsessions call hbegin).2
    · exact (h.closes i e hi).of_closed hlasting
  | @closes j _ _ _ _ _ _ hj hturn =>
    rcases update_eq_some.mp hi with ⟨-, heq⟩ | ⟨-, hi⟩
    · obtain rfl := Option.some.inj heq
      exact ((h.closes j _ hj).of_turn hturn hlasting).2
    · exact (h.closes i e hi).of_closed hlasting
  | closed hj hturn =>
    rcases update_eq_some.mp hi with ⟨-, heq⟩ | ⟨-, hi⟩
    · cases heq
    · exact (h.closes i e hi).of_closed hlasting

/-- Only handing out makes sessions. -/
theorem Step.size_le (h : Step k k') (hnew : k.sessions.all.length ≤ n)
    (hn : n < k'.sessions.all.length) : ∃ r, k' = ⟨r, k.held⟩ ∧ k.sessions.Settles r := by
  have hsame : k'.sessions.all.length = k.sessions.all.length →
      ∃ r, k' = ⟨r, k.held⟩ ∧ k.sessions.Settles r :=
    fun hsize ↦ absurd (hsize ▸ hn) (Nat.not_lt.mpr hnew)
  cases h with
  | settles h => exact ⟨_, rfl, h⟩
  | @takes _ call _ _ _ h | @takesAtOnce call _ _ h =>
    have hsize := (k.sessions.table_evict call).2
    rw [h] at hsize
    exact hsame hsize
  | closes _ h =>
    obtain ⟨m, c, c', -, hstep, -⟩ := Eviction.turn_eq_moved h
    exact hsame (Sessions.SameShelf.of_closingStep hstep).size
  | closed _ h =>
    obtain ⟨m, c, -, hstep, -⟩ := Eviction.turn_eq_finished h
    exact hsame (Sessions.SameShelf.of_closingStep hstep).size

/-- A session that is kept is handed on, and closed when it is given back. -/
theorem Placed.step (h : k.Placed n) (hsound : k.Sound) (hn : n < k.sessions.all.length)
    (hstep : Step k k') : k'.Placed n := by
  have hkeeps := hstep.keeps
  have hsessions : ∀ key n, (key, n) ∈ k.sessions.table → ∃ s, k.sessions.session? n = some s :=
    fun _ _ ↦ hsound.exists_session
  rcases h with hoffers | ⟨j, x, hj, hmem⟩ | hclosed
  · cases hstep with
    | settles h =>
      exact (h.offers hsound.keys n (Nat.lt_of_lt_of_le hn h.evolves.size) fun _ ↦ hoffers).imp_right
        Or.inr
    | @takes i call e r hi h =>
      rcases hoffers.of_begin hsound.keys h with hoffers | htaken
      · exact Or.inl hoffers
      · refine Or.inr (Or.inl ⟨i, e, update_eq_some.mpr (Or.inl ⟨rfl, rfl⟩), ?_⟩)
        rwa [(Eviction.closes_of_begin hsessions call h).1]
    | @takesAtOnce call any r h =>
      rcases hoffers.of_begin hsound.keys h with hoffers | htaken
      · exact Or.inl hoffers
      · exact Or.inr (Or.inr (Eviction.closed_of_begin hsessions call h htaken))
    | closes _ h =>
      obtain ⟨m, c, c', -, hstep, -⟩ := Eviction.turn_eq_moved h
      obtain ⟨key, hmem⟩ := hoffers
      exact Or.inl ⟨key, (Sessions.SameShelf.of_closingStep hstep).table.symm ▸ hmem⟩
    | closed _ h =>
      obtain ⟨m, c, -, hstep, -⟩ := Eviction.turn_eq_finished h
      obtain ⟨key, hmem⟩ := hoffers
      exact Or.inl ⟨key, (Sessions.SameShelf.of_closingStep hstep).table.symm ▸ hmem⟩
  · cases hstep with
    | settles | takesAtOnce => exact Or.inr (Or.inl ⟨j, x, hj, hmem⟩)
    | @takes i call e r hi h =>
      have hne : j ≠ i := fun heq ↦ absurd ((heq ▸ hj).symm.trans hi) nofun
      exact Or.inr (Or.inl ⟨j, x, update_eq_some.mpr (Or.inr ⟨hne, hj⟩), hmem⟩)
    | @closes i e e' r _ _ _ hi h =>
      refine Or.inr (Or.inl ?_)
      by_cases heq : j = i
      · subst heq
        obtain rfl := Option.some.inj (hj.symm.trans hi)
        have hsame := ((hsound.closes j x hj).of_turn h hkeeps.evolves.closed).1
        exact ⟨j, e', update_eq_some.mpr (Or.inl ⟨rfl, rfl⟩), hsame ▸ hmem⟩
      · exact ⟨j, x, update_eq_some.mpr (Or.inr ⟨heq, hj⟩), hmem⟩
    | @closed i e any r _ _ _ hi h =>
      by_cases heq : j = i
      · subst heq
        obtain rfl := Option.some.inj (hj.symm.trans hi)
        exact Or.inr (Or.inr ((hsound.closes j x hj).closed_of_turn h hkeeps.evolves.closed hmem))
      · exact Or.inr (Or.inl ⟨j, x, update_eq_some.mpr (Or.inr ⟨heq, hj⟩), hmem⟩)
  · exact Or.inr (Or.inr (hclosed.of_evolves hkeeps.evolves))

/-- A session that is made is one of the table. -/
theorem placed_of_made (hsound : k.Sound) (hstep : Step k k') (hnew : k.sessions.all.length ≤ n)
    (hn : n < k'.sessions.all.length) : k'.Placed n := by
  obtain ⟨r, rfl, h⟩ := hstep.size_le hnew hn
  exact (h.offers hsound.keys n hn fun hlt ↦ absurd hlt (Nat.not_lt.mpr hnew)).imp_right Or.inr

/-- Whoever tells a server to exit goes on until the server was told. -/
theorem Tells.step (h : k.Tells n) (hsound : k.Sound) (hstep : Step k k') :
    k'.Tells n ∨ ∃ s c, k'.sessions.session? n = some s ∧ s.client = some c ∧ c.Dismissed := by
  obtain ⟨j, x, note, hj, hmem, hmessage⟩ := h
  obtain ⟨s, hs, -⟩ := hsound.closes j x hj n _ hmem
  cases hstep with
  | settles | takesAtOnce => exact Or.inl ⟨j, x, note, hj, hmem, hmessage⟩
  | @takes i call e r hi h =>
    have hne : j ≠ i := fun heq ↦ absurd ((heq ▸ hj).symm.trans hi) nofun
    exact Or.inl ⟨j, x, note, update_eq_some.mpr (Or.inr ⟨hne, hj⟩), hmem, hmessage⟩
  | @closes i e e' r _ _ strand hi h =>
    by_cases heq : j = i
    · subst heq
      obtain rfl := Option.some.inj (hj.symm.trans hi)
      obtain ⟨m, c, c', hm, hstep, rfl⟩ := Eviction.turn_eq_moved h
      obtain ⟨place, hat⟩ := List.getElem?_of_mem hmem
      by_cases hsame : strand = place
      · subst hsame
        obtain ⟨rfl, rfl⟩ := Prod.mk.inj (Option.some.inj (hm.symm.trans hat))
        exact Or.inr (Sessions.dismissed_of_closingStep hstep hs hmessage)
      · refine Or.inl ⟨j, _, note, update_eq_some.mpr (Or.inl ⟨rfl, rfl⟩), ?_, hmessage⟩
        refine List.mem_of_getElem? (i := place) ?_
        rw [List.getElem?_set_ne hsame, hat]
    · exact Or.inl ⟨j, x, note, update_eq_some.mpr (Or.inr ⟨heq, hj⟩), hmem, hmessage⟩
  | @closed i e any r _ _ strand hi h =>
    by_cases heq : j = i
    · subst heq
      obtain rfl := Option.some.inj (hj.symm.trans hi)
      obtain ⟨m, c, hm, hstep, hover, -⟩ := Eviction.turn_eq_finished h
      obtain ⟨place, hat⟩ := List.getElem?_of_mem hmem
      by_cases hsame : strand = place
      · subst hsame
        obtain ⟨rfl, rfl⟩ := Prod.mk.inj (Option.some.inj (hm.symm.trans hat))
        exact Or.inr (Sessions.dismissed_of_closingStep hstep hs hmessage)
      · -- All others are over.
        have hothers : (n, CodeNav.Closing.going (.exiting note)) ∈ x.closings.set strand (m, .over) := by
          refine List.mem_of_getElem? (i := place) ?_
          rw [List.getElem?_set_ne hsame, hat]
        exact absurd (List.all_eq_true.mp hover _ hothers) nofun
    · exact Or.inl ⟨j, x, note, update_eq_some.mpr (Or.inr ⟨heq, hj⟩), hmem, hmessage⟩

/-- A session that has parted from its server stays so. -/
theorem Parted.step (h : k.Parted n) (hsound : k.Sound) (hstep : Step k k') : k'.Parted n :=
  h.of_keeps hsound hstep.keeps fun htells ↦ htells.step hsound hstep

/-- A session that is closed parts from its server, unless its handshake has failed. -/
theorem parted_of_step (hsound : k.Sound) (hstep : Step k k') (hs : k.sessions.session? n = some s)
    (hopen : s.state ≠ .closed) (hc : s.client = some c) (hs' : k'.sessions.session? n = some s')
    (hclosed : s'.state = .closed) :
    (∃ e, s'.handshake = .ended (.error e)) ∨ k'.Parted n := by
  have hbased := hsound.based n s hs
  have hkeeps := hstep.keeps
  obtain ⟨x, hx, hkept⟩ := hkeeps.keeps n s hs hbased
  obtain rfl := Option.some.inj (hx.symm.trans hs')
  obtain ⟨c', hc', -⟩ := hkept.client c hc
  have hgone : x.Gone → (∃ e, x.handshake = .ended (.error e)) ∨ k'.Parted n := by
    rintro (⟨d, hd, hdone⟩ | hfailed)
    · exact Or.inr ⟨x, d, hs', hclosed, hd, Or.inl (Or.inl hdone)⟩
    · exact Or.inl hfailed
  have hsame : k'.sessions.all ≠ k.sessions.all := by
    intro hall
    have hsame : k'.sessions.session? n = k.sessions.session? n := congrArg (·[n]?) hall
    obtain rfl := Option.some.inj (hs'.symm.trans (hsame.trans hs))
    exact hopen hclosed
  -- Only one session has changed, by a call that is closing it.
  have hleaves : ∀ {m : Nat} {after : Option SessionPhase} {y z : Session},
      k.sessions.session? m = some y → k'.sessions.all = (k.sessions.put m z).all → y.Leaves z after →
      (∀ phase, after = some phase → ∃ i e, k'.held i = some e ∧ (m, .going phase) ∈ e.closings) →
      (∃ e, x.handshake = .ended (.error e)) ∨ k'.Parted n := by
    intro m after y z hy hall hleaves htells
    have hput : k'.sessions.session? n = (k.sessions.put m z).session? n := congrArg (·[n]?) hall
    rw [Sessions.session?_put hy, hs'] at hput
    split at hput
    · rename_i heq
      subst heq
      obtain rfl := Option.some.inj hput
      obtain rfl := Option.some.inj (hy.symm.trans hs)
      rcases hleaves hopen hclosed c hc with hlost | ⟨note, rfl, hmessage⟩
      · exact hgone hlost
      · obtain ⟨i, e, hi, hmem⟩ := htells _ rfl
        exact Or.inr ⟨x, c', hs', hclosed, hc', Or.inr ⟨i, e, note, hi, hmem, hmessage⟩⟩
    · obtain rfl := Option.some.inj (hput.trans hs)
      exact absurd hclosed hopen
  have hsessions : ∀ key n, (key, n) ∈ k.sessions.table → ∃ s, k.sessions.session? n = some s :=
    fun _ _ ↦ hsound.exists_session
  cases hstep with
  | settles h => exact hgone (h.quits n s x hs hs' hbased hopen hclosed c hc)
  | @takes i call e r hi h =>
    rcases Sessions.leaves_of_begin hsessions h with hall | ⟨m, y, z, after, hy, hall, hyz, hphases⟩
    · exact absurd hall hsame
    · refine hleaves hy hall hyz fun phase hphase ↦ ?_
      obtain ⟨e', he', hmem⟩ := hphases phase hphase
      obtain rfl := Sum.inl.inj he'
      exact ⟨i, e, update_eq_some.mpr (Or.inl ⟨rfl, rfl⟩), hmem⟩
  | @takesAtOnce call any r h =>
    rcases Sessions.leaves_of_begin hsessions h with hall | ⟨m, y, z, after, hy, hall, hyz, hphases⟩
    · exact absurd hall hsame
    · refine hleaves hy hall hyz fun phase hphase ↦ ?_
      obtain ⟨e', he', -⟩ := hphases phase hphase
      cases he'
  | @closes i e e' r _ _ strand hi h =>
    obtain ⟨m, a, b, hm, hclosing, rfl⟩ := Eviction.turn_eq_moved h
    obtain ⟨y, hy, hcloses⟩ := hsound.closes i e hi m a (List.mem_of_getElem? hm)
    obtain ⟨z, rfl, hyz⟩ := Sessions.leaves_of_closingStep hclosing hy hcloses
    refine hleaves hy rfl hyz fun phase hphase ↦ ?_
    refine ⟨i, _, update_eq_some.mpr (Or.inl ⟨rfl, rfl⟩), ?_⟩
    cases b with
    | going phase' =>
      obtain rfl := Option.some.inj hphase
      exact List.mem_set (List.getElem?_eq_some_iff.mp hm).1 _
    | notBegun | «over» => cases hphase
  | @closed i e any r _ _ strand hi h =>
    obtain ⟨m, a, hm, hclosing, -⟩ := Eviction.turn_eq_finished h
    obtain ⟨y, hy, hcloses⟩ := hsound.closes i e hi m a (List.mem_of_getElem? hm)
    obtain ⟨z, rfl, hyz⟩ := Sessions.leaves_of_closingStep hclosing hy hcloses
    exact hleaves hy rfl hyz fun phase hphase ↦ (by cases hphase)

end Steps

/-! ### Calls that are given up -/

/-- Sessions that nobody is closing. -/
def unheld (ι : Type) (r : Sessions) : Custody ι := ⟨r, fun _ ↦ none⟩

variable {r : Sessions}

theorem Sound.abandon (h : k.Sound) (hsettles : k.sessions.Settles r) : (unheld ι r).Sound :=
  h.of_keeps hsettles.toKeeps nofun

/-- When all calls are given up, a session is still kept, unless it was being closed. -/
theorem Placed.abandon (h : k.Placed n) (hsound : k.Sound) (hn : n < k.sessions.all.length)
    (hsettles : k.sessions.Settles r) : k.IsClosing n ∨ (unheld ι r).Placed n := by
  rcases h with hoffers | ⟨i, e, hi, hmem⟩ | hclosed
  · have hlt := Nat.lt_of_lt_of_le hn hsettles.evolves.size
    exact Or.inr ((hsettles.offers hsound.keys n hlt fun _ ↦ hoffers).imp_right Or.inr)
  · obtain ⟨⟨m, x⟩, hx, rfl⟩ := List.mem_map.mp hmem
    cases x with
    | «over» =>
      have hclosed : k.sessions.IsClosed m := hsound.closes i e hi m .over hx
      exact Or.inr (Or.inr (Or.inr (hclosed.of_evolves hsettles.evolves)))
    | notBegun | going => exact Or.inl ⟨i, e, _, hi, hx, nofun⟩
  · exact Or.inr (Or.inr (Or.inr (hclosed.of_evolves hsettles.evolves)))

/-- When all calls are given up, a session has still parted from its server, unless the server was about to
be told. -/
theorem Parted.abandon (h : k.Parted n) (hsound : k.Sound) (hsettles : k.sessions.Settles r) :
    k.IsClosing n ∨ (unheld ι r).Parted n := by
  by_cases htells : k.Tells n
  · obtain ⟨i, e, note, hi, hmem, -⟩ := htells
    exact Or.inl ⟨i, e, _, hi, hmem, nofun⟩
  · exact Or.inr (h.of_keeps hsound hsettles.toKeeps fun h ↦ absurd h htells)

end Custody

end CodeNav
