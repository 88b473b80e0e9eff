import CodeNav.Proofs.Server.Hosts

/-!
# Sessions that are taken out

Whoever takes sessions out closes each of them by a call of its own. Seen from one session, taking it
out is nothing, and closing it is one of the calls that are made on it.

## Main definitions

* `Closing.Step`: closing a session goes on
* `Eviction.Begins`: what taking sessions out begins with
* `Eviction.phases`: the calls by which sessions are being closed
* `Sessions.AdmitsClosing`: a relation of sessions to what may become of them while some are being closed

## Main statements

* `Eviction.turn_eq_moved`, `Eviction.turn_eq_finished`: a turn of an eviction is a step of one closing
* `Sessions.AdmitsClosing.evictionTurn`, `Sessions.AdmitsClosing.evict`, `Sessions.AdmitsClosing.turnFor`:
  what relates sessions to those on which closing has begun or gone on relates them to what taking out
  makes of them
* `Eviction.drop_induction`: giving up closing gives up calls one by one
* `Hosting.leads_evict`, `Hosting.leads_evictionTurn_moved`, `Hosting.leads_evictionTurn_finished`,
  `Hosting.leads_evictionDrop`: taking sessions out is a run of callers for each of them
-/

namespace CodeNav

/-! ### How closing goes on -/

/-- The call by which a session is being closed. -/
def Closing.phase? : Closing → Option SessionPhase
  | .going phase => some phase
  | _ => none

/-- Closing the session with a number goes on. -/
inductive Closing.Step (fs : FileSystem) (now m : Nat) (r : Sessions) :
    Closing → Closing → Sessions → Prop
  | begun {phase : SessionPhase} {r' : Sessions} (h : r.beginOn m .close = (.inl phase, r')) :
      Step fs now m r .notBegun (.going phase) r'
  | atOnce {result : SessionResult} {r' : Sessions} (h : r.beginOn m .close = (.inr result, r')) :
      Step fs now m r .notBegun .over r'
  | goesOn {phase phase' : SessionPhase} {r' : Sessions}
      (h : r.turnOn fs now m phase = .moved phase' r') :
      Step fs now m r (.going phase) (.going phase') r'
  | ends {phase : SessionPhase} {result : SessionResult} {r' : Sessions}
      (h : r.turnOn fs now m phase = .finished result r') : Step fs now m r (.going phase) .over r'

namespace Eviction

variable {e e' : Eviction} {r r' : Sessions} {fs : FileSystem} {now i m : Nat} {any : Bool}
  {c : Closing} {key : RepositoryKey}

/-- The calls by which sessions are being closed. -/
def phases (e : Eviction) : List (Nat × SessionPhase) :=
  e.closings.filterMap fun c ↦ c.2.phase?.map (c.1, ·)

/-- The calls of an eviction that may not have begun, or may be over. -/
def callsOf (e : Option Eviction) : List (Nat × SessionPhase) :=
  (e.map phases).getD []

/-- Nothing is left to do for an eviction that is over. -/
theorem phases_of_isOver (h : e.isOver = true) : e.phases = [] := by
  simp only [isOver, List.all_eq_true] at h
  rw [phases, List.filterMap_eq_nil_iff]
  intro x hx
  have hover := h x hx
  split at hover
  · rename_i heq
    rw [heq]
    rfl
  · cases hover

theorem advance_eq_moved (h : e.advance i m c r = .moved e' r') :
    e' = ⟨e.closings.set i (m, c)⟩ ∧ r' = r := by
  simp only [advance] at h
  split at h
  · cases h
  · obtain ⟨rfl, rfl⟩ := Turn.moved.inj h
    exact ⟨rfl, rfl⟩

theorem advance_eq_finished (h : e.advance i m c r = .finished any r') :
    isOver ⟨e.closings.set i (m, c)⟩ = true ∧ any = true ∧ r' = r := by
  simp only [advance] at h
  split at h
  · rename_i hover
    obtain ⟨rfl, rfl⟩ := Turn.finished.inj h
    exact ⟨hover, rfl, rfl⟩
  · cases h

/-- An eviction that goes on closes one of its sessions. -/
theorem turn_eq_moved (h : e.turn fs now i r = .moved e' r') :
    ∃ m c c', e.closings[i]? = some (m, c) ∧ Closing.Step fs now m r c c' r' ∧
      e' = ⟨e.closings.set i (m, c')⟩ := by
  simp only [turn] at h
  split at h
  · cases h
  · cases h
  · rename_i m hm
    split at h <;> obtain ⟨rfl, rfl⟩ := advance_eq_moved h
    · exact ⟨m, _, _, hm, .begun ‹_›, rfl⟩
    · exact ⟨m, _, _, hm, .atOnce ‹_›, rfl⟩
  · rename_i m phase hm
    rcases Turn.map_eq_moved.mp h with ⟨phase', hturn, rfl⟩ | ⟨result, r₁, hturn, hend⟩
    · exact ⟨m, _, _, hm, .goesOn hturn, rfl⟩
    · obtain ⟨rfl, rfl⟩ := advance_eq_moved hend
      exact ⟨m, _, _, hm, .ends hturn, rfl⟩

/-- An eviction is over when the last of its sessions is closed. -/
theorem turn_eq_finished (h : e.turn fs now i r = .finished any r') :
    ∃ m c, e.closings[i]? = some (m, c) ∧ Closing.Step fs now m r c .over r' ∧
      isOver ⟨e.closings.set i (m, .over)⟩ = true ∧ any = true := by
  simp only [turn] at h
  split at h
  · cases h
  · cases h
  · rename_i m hm
    split at h <;> obtain ⟨hover, rfl, rfl⟩ := advance_eq_finished h
    · -- A call that goes on is not over.
      have hlt : i < e.closings.length := (List.getElem?_eq_some_iff.mp hm).1
      simp only [isOver, List.all_eq_true] at hover
      exact absurd (hover _ (List.mem_set hlt _)) nofun
    · exact ⟨m, _, hm, .atOnce ‹_›, hover, rfl⟩
  · rename_i m phase hm
    obtain ⟨result, r₁, hturn, hend⟩ := Turn.map_eq_finished.mp h
    obtain ⟨hover, rfl, rfl⟩ := advance_eq_finished hend
    exact ⟨m, _, hm, .ends hturn, hover, rfl⟩

/-- Sessions are taken out: there are none, or closing them begins. -/
inductive Begins (r : Sessions) : EvictionCall → Eviction ⊕ Bool → Sessions → Prop
  | missing {key : RepositoryKey} (hfind : r.find? key = none) : Begins r (.one key) (.inr false) r
  | begun {key : RepositoryKey} {m : Nat} {phase : SessionPhase} {r' : Sessions}
      (hfind : r.find? key = some m) (hclose : (r.without key).beginOn m .close = (.inl phase, r')) :
      Begins r (.one key) (.inl ⟨[(m, .going phase)]⟩) r'
  | atOnce {key : RepositoryKey} {m : Nat} {result : SessionResult} {r' : Sessions}
      (hfind : r.find? key = some m) (hclose : (r.without key).beginOn m .close = (.inr result, r')) :
      Begins r (.one key) (.inr true) r'
  | empty (htable : r.table = []) : Begins r .all (.inr true) r
  | all (htable : r.table ≠ []) :
      Begins r .all (.inl ⟨r.table.map fun e ↦ (e.2, .notBegun)⟩) { r with table := [] }

theorem begins_of_begin {call : EvictionCall} {b : Eviction ⊕ Bool} (h : begin call r = (b, r')) :
    Begins r call b r' := by
  cases call with
  | one key =>
    simp only [begin, beginOne] at h
    split at h
    · obtain ⟨rfl, rfl⟩ := Prod.mk.inj h
      exact .missing ‹_›
    · rename_i m hfind
      rcases hclose : (r.without key).beginOn m .close with ⟨phase | result, r₁⟩ <;> rw [hclose] at h <;>
        obtain ⟨rfl, rfl⟩ := Prod.mk.inj h
      · exact .begun hfind hclose
      · exact .atOnce hfind hclose
  | all =>
    simp only [begin, beginAll] at h
    split at h <;> obtain ⟨rfl, rfl⟩ := Prod.mk.inj h
    · exact .empty ‹_›
    · exact .all ‹_›

/-- Whoever has not begun to take out the session of a repository begins. -/
theorem turnFor_none_eq_moved :
    turnFor fs now key none r = .moved e' r' ↔ begin (.one key) r = (.inl e', r') := by
  simp only [turnFor, begin]
  split <;> rename_i heq <;> simp [heq]

theorem turnFor_none_eq_finished :
    turnFor fs now key none r = .finished any r' ↔ begin (.one key) r = (.inr any, r') := by
  simp only [turnFor, begin]
  split <;> rename_i heq <;> simp [heq]

/-- What holds of sessions whatever call on them is given up holds when closing is given up. -/
theorem drop_induction {P : Sessions → Prop} (e : Eviction) (h : P r)
    (hdrop : ∀ (r : Sessions) (n : Nat) (phase : SessionPhase), P r → P (r.dropOn n phase)) :
    P (e.drop r) := by
  obtain ⟨closings⟩ := e
  induction closings generalizing r with
  | nil => exact h
  | cons c closings ih =>
    obtain ⟨m, - | phase | -⟩ := c
    · exact ih h
    · exact ih (hdrop r m phase h)
    · exact ih h

end Eviction

/-! ### Relations that taking out keeps -/

namespace Sessions

/-- A relation of sessions to what may become of them while some of them are being closed. -/
structure AdmitsClosing (R : Sessions → Sessions → Prop) : Prop where
  refl (r : Sessions) : R r r
  trans {r r' r'' : Sessions} (h : R r r') (h' : R r' r'') : R r r''
  beginOn (r : Sessions) (n : Nat) : R r (r.beginOn n .close).2
  turnOn (r : Sessions) (fs : FileSystem) (now n : Nat) (phase : SessionPhase) :
    (r.turnOn fs now n phase).Leads (R r)

namespace AdmitsClosing

variable {R : Sessions → Sessions → Prop} {r r' : Sessions} {fs : FileSystem} {now n : Nat}
  {c c' : Closing}

theorem closingStep (hR : AdmitsClosing R) (h : Closing.Step fs now n r c c' r') : R r r' := by
  cases h with
  | begun h | atOnce h =>
    have hbegin := hR.beginOn r n
    rwa [h] at hbegin
  | goesOn h => exact (hR.turnOn ..).moved h
  | ends h => exact (hR.turnOn ..).finished h

theorem evictionTurn (hR : AdmitsClosing R) (e : Eviction) (fs : FileSystem) (now i : Nat)
    (r : Sessions) : (e.turn fs now i r).Leads (R r) := by
  refine Turn.leads_iff.mpr ⟨fun e' r' hturn ↦ ?_, fun any r' hturn ↦ ?_⟩
  · obtain ⟨m, c, c', -, hstep, -⟩ := Eviction.turn_eq_moved hturn
    exact hR.closingStep hstep
  · obtain ⟨m, c, -, hstep, -⟩ := Eviction.turn_eq_finished hturn
    exact hR.closingStep hstep

/-- Sessions are taken out, if they may be taken from the table. -/
theorem evict (hR : AdmitsClosing R)
    (htable : ∀ (r : Sessions) {table : List (RepositoryKey × Nat)}, table.Sublist r.table →
      R r { r with table := table })
    (r : Sessions) (call : EvictionCall) : R r (Eviction.begin call r).2 := by
  rcases hbegin : Eviction.begin call r with ⟨b, r'⟩
  cases Eviction.begins_of_begin hbegin with
  | missing | empty => exact hR.refl r
  | @begun key m _ _ _ hclose | @atOnce key m _ _ _ hclose =>
    have hclosing := hR.beginOn (r.without key) m
    rw [hclose] at hclosing
    exact hR.trans (htable r List.filter_sublist) hclosing
  | all => exact htable r (List.nil_sublist _)

theorem turnFor (hR : AdmitsClosing R)
    (htable : ∀ (r : Sessions) {table : List (RepositoryKey × Nat)}, table.Sublist r.table →
      R r { r with table := table })
    (e : Option Eviction) (fs : FileSystem) (now : Nat) (key : RepositoryKey) (r : Sessions) :
    (Eviction.turnFor fs now key e r).Leads (R r) := by
  cases e with
  | some e => exact hR.evictionTurn e fs now 0 r
  | none =>
    have hbegin := hR.evict htable r (.one key)
    refine Turn.leads_iff.mpr ⟨fun e r' hturn ↦ ?_, fun any r' hturn ↦ ?_⟩
    · rwa [Eviction.turnFor_none_eq_moved.mp hturn] at hbegin
    · rwa [Eviction.turnFor_none_eq_finished.mp hturn] at hbegin

end AdmitsClosing

end Sessions

/-! ### Taking out, seen from one session -/

namespace Hosting

variable {S : SessionWorld → SessionEvent → SessionWorld → Prop} {n m i : Nat} {h h' : Hosting}
  {r r' : Sessions} {rest : List (Nat × SessionPhase)} {launching : Nat → Option LaunchSpec}
  {now : Nat} {fs : FileSystem} {e e' : Eviction} {any : Bool} {c c' : Closing}

/-- The order of calls is nothing to a session. -/
theorem leads_perm {a b : List (Nat × SessionPhase)} (hperm : a.Perm b) :
    Leads S n ⟨r, a, launching, now⟩ ⟨r, b, launching, now⟩ :=
  leads_of_same rfl (hperm.filterMap _) rfl rfl

/-- Calls that close a session may begin at any time. -/
theorem leads_beginClose (hS : SessionWorld.Regime S) (m : Nat) :
    Leads S n ⟨r, rest, launching, now⟩
      ⟨(r.beginOn m .close).2,
        (SessionWorld.phaseOf (r.beginOn m .close).1).toList.map (m, ·) ++ rest, launching, now⟩ :=
  leads_beginOn .close fun _ _ _ ↦ hS.mayBegin nofun

/-- Closing a session is one of the calls on it. -/
theorem leads_closingStep (hS : SessionWorld.Regime S) (hstep : Closing.Step fs now m r c c' r') :
    Leads S n ⟨r, (c.phase?.map (m, ·)).toList ++ rest, launching, now⟩
      ⟨r', (c'.phase?.map (m, ·)).toList ++ rest, launching, now⟩ := by
  cases hstep with
  | begun hbegin | atOnce hbegin =>
    have hleads : Leads S n ⟨r, rest, launching, now⟩ ⟨(r.beginOn m .close).2,
        (SessionWorld.phaseOf (r.beginOn m .close).1).toList.map (m, ·) ++ rest, launching, now⟩ :=
      leads_beginClose hS m
    rw [hbegin] at hleads
    exact hleads
  | goesOn hturn => exact leads_turnOn_moved hS hturn
  | ends hturn => exact leads_turnOn_finished hS hturn

/-- The calls of an eviction when one of them has come further. -/
theorem exists_perm_phases_set (hi : e.closings[i]? = some (m, c)) :
    ∃ others, e.phases.Perm ((c.phase?.map (m, ·)).toList ++ others) ∧ ∀ c' : Closing,
      (Eviction.phases ⟨e.closings.set i (m, c')⟩).Perm
        ((c'.phase?.map (m, ·)).toList ++ others) := by
  obtain ⟨others, hbefore, hafter⟩ :=
    perm_filterMap_set (fun c : Nat × Closing ↦ c.2.phase?.map (c.1, ·)) hi
  exact ⟨others, hbefore, fun c' ↦ hafter (m, c')⟩

/-- An eviction that goes on. -/
theorem leads_evictionTurn_moved (hS : SessionWorld.Regime S)
    (hturn : e.turn fs now i r = .moved e' r') :
    Leads S n ⟨r, e.phases ++ rest, launching, now⟩ ⟨r', e'.phases ++ rest, launching, now⟩ := by
  obtain ⟨m, c, c', hi, hstep, rfl⟩ := Eviction.turn_eq_moved hturn
  obtain ⟨others, hbefore, hafter⟩ := exists_perm_phases_set hi
  have hleads : Leads S n
      ⟨r, (c.phase?.map (m, ·)).toList ++ (others ++ rest), launching, now⟩
      ⟨r', (c'.phase?.map (m, ·)).toList ++ (others ++ rest), launching, now⟩ :=
    leads_closingStep hS hstep
  simp only [← List.append_assoc] at hleads
  refine (leads_perm (hbefore.append_right rest)).trans (hleads.trans ?_)
  exact leads_perm ((hafter c').symm.append_right rest)

/-- An eviction that is over. -/
theorem leads_evictionTurn_finished (hS : SessionWorld.Regime S)
    (hturn : e.turn fs now i r = .finished any r') :
    Leads S n ⟨r, e.phases ++ rest, launching, now⟩ ⟨r', rest, launching, now⟩ := by
  obtain ⟨m, c, hi, hstep, hover, -⟩ := Eviction.turn_eq_finished hturn
  obtain ⟨others, hbefore, hafter⟩ := exists_perm_phases_set hi
  obtain rfl : others = [] := by
    have hperm := hafter .over
    rw [Eviction.phases_of_isOver hover] at hperm
    exact List.nil_perm.mp hperm
  rw [List.append_nil] at hbefore
  exact (leads_perm (hbefore.append_right rest)).trans (leads_closingStep hS hstep)

/-- Sessions are taken out. -/
theorem leads_evict (hS : SessionWorld.Regime S) (call : EvictionCall) :
    Leads S n ⟨r, rest, launching, now⟩
      ⟨(Eviction.begin call r).2, Eviction.callsOf (Eviction.begin call r).1.getLeft? ++ rest, launching,
        now⟩ := by
  rcases hbegin : Eviction.begin call r with ⟨b, r'⟩
  cases Eviction.begins_of_begin hbegin with
  | missing | empty => exact leads_of_all rfl
  | @begun key m _ _ _ hclose | @atOnce key m _ _ _ hclose =>
    have htable : Leads S n ⟨r, rest, launching, now⟩ ⟨r.without key, rest, launching, now⟩ :=
      leads_of_all rfl
    have hleads := htable.trans (leads_beginClose hS m)
    rw [hclose] at hleads
    exact hleads
  | all =>
    have hphases : Eviction.phases ⟨r.table.map fun e ↦ (e.2, .notBegun)⟩ = [] := by
      simp [Eviction.phases, Closing.phase?]
    simp only [Sum.getLeft?, Eviction.callsOf, Option.map_some, Option.getD_some, hphases]
    exact leads_of_all rfl

/-- The session of a repository is taken out, or goes on being closed. -/
theorem leads_turnFor_moved (hS : SessionWorld.Regime S) {key : RepositoryKey} {x : Option Eviction}
    (hturn : Eviction.turnFor fs now key x r = .moved e' r') :
    Leads S n ⟨r, Eviction.callsOf x ++ rest, launching, now⟩ ⟨r', e'.phases ++ rest, launching, now⟩ := by
  cases x with
  | some e => exact leads_evictionTurn_moved hS hturn
  | none =>
    have hleads : Leads S n ⟨r, rest, launching, now⟩ _ := leads_evict hS (.one key)
    rw [Eviction.turnFor_none_eq_moved.mp hturn] at hleads
    exact hleads

/-- The session of a repository is closed, or there is none. -/
theorem leads_turnFor_finished (hS : SessionWorld.Regime S) {key : RepositoryKey} {x : Option Eviction}
    (hturn : Eviction.turnFor fs now key x r = .finished any r') :
    Leads S n ⟨r, Eviction.callsOf x ++ rest, launching, now⟩ ⟨r', rest, launching, now⟩ := by
  cases x with
  | some e => exact leads_evictionTurn_finished hS hturn
  | none =>
    have hleads : Leads S n ⟨r, rest, launching, now⟩ _ := leads_evict hS (.one key)
    rw [Eviction.turnFor_none_eq_finished.mp hturn] at hleads
    exact hleads

/-- Closing is given up. -/
theorem leads_evictionDrop
    (hallowed : ∀ phase, (n, phase) ∈ e.phases → SessionWorld.MayDrop S phase) :
    Leads S n ⟨r, e.phases ++ rest, launching, now⟩ ⟨e.drop r, rest, launching, now⟩ := by
  obtain ⟨closings⟩ := e
  induction closings generalizing r with
  | nil => exact leads_of_all rfl
  | cons x closings ih =>
    obtain ⟨m, c⟩ := x
    cases c with
    | notBegun | «over» => exact ih hallowed
    | going phase =>
      refine Leads.trans (leads_dropOn fun hmn ↦ hallowed phase ?_)
        (ih fun phase' hphase' ↦ hallowed phase' (List.mem_cons_of_mem _ hphase'))
      subst hmn
      exact List.mem_cons_self

end Hosting

end CodeNav
