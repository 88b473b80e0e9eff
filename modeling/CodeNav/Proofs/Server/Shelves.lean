import CodeNav.Proofs.Server.Registry

/-!
# The table of sessions

Only handing out and taking out change the table of the sessions that may be handed out, and only handing
out makes sessions. The table has one session for a key, which is a session of this key, and a session that
is not in it never comes into it.

## Main definitions

* `Sessions.SameShelf`: the same table, and no new sessions
* `RegistryWorld.Shelves`: what steps do to the table
* `RegistryWorld.Shelved`: the table has one session for a key
* `RegistryWorld.Retired`: a session that is not in the table

## Main statements

* `RegistryWorld.Step.shelves`: every step does one of these things
* `RegistryWorld.shelved_of_run`: the table has one session for a key after every run
* `RegistryWorld.Retired.run`: a session that is not in the table is not handed out any more
-/

namespace CodeNav

/-! ### What leaves the table alone -/

namespace Sessions

/-- The same table, and no new sessions. -/
structure SameShelf (r r' : Sessions) : Prop where
  table : r'.table = r.table
  size : r'.all.length = r.all.length

namespace SameShelf

variable {r r' r'' : Sessions} {fs : FileSystem} {now n : Nat} {phase : SessionPhase}

theorem refl (r : Sessions) : SameShelf r r := ⟨rfl, rfl⟩

theorem trans (h : SameShelf r r') (h' : SameShelf r' r'') : SameShelf r r'' :=
  ⟨h'.table.trans h.table, h'.size.trans h.size⟩

theorem put (r : Sessions) (n : Nat) (s : Session) : SameShelf r (r.put n s) :=
  ⟨rfl, List.length_set⟩

theorem change (r : Sessions) (n : Nat) (f : Session → Session) : SameShelf r (r.change n f) :=
  ⟨rfl, List.length_modify ..⟩

theorem beginOn (r : Sessions) (n : Nat) (call : SessionCall) : SameShelf r (r.beginOn n call).2 := by
  simp only [Sessions.beginOn]
  split
  · exact refl r
  · exact put r n _

theorem turnOn (r : Sessions) (fs : FileSystem) (now n : Nat) (phase : SessionPhase) :
    (r.turnOn fs now n phase).Leads (SameShelf r) := by
  simp only [Sessions.turnOn]
  split
  · exact refl r
  · rename_i s _
    refine Turn.leads_lift ?_
    cases s.turn fs now phase <;> first | exact True.intro | exact put r n _

theorem admitsClosing : AdmitsClosing SameShelf where
  refl := refl
  trans := trans
  beginOn r n := beginOn r n .close
  turnOn := turnOn

theorem of_closingStep {c c' : Closing} (h : Closing.Step fs now n r c c' r') : SameShelf r r' :=
  admitsClosing.closingStep h

theorem evictionDrop (e : Eviction) (r : Sessions) : SameShelf r (e.drop r) :=
  e.drop_induction (refl r) fun r' n _ h ↦ h.trans (change r' n _)

theorem of_background {e : SessionEvent} {launching launching' : Nat → Option LaunchSpec}
    (h : Background now n r launching e r' launching') : SameShelf r r' := by
  cases h with
  | launch => exact refl r
  | launched => exact put r n _
  | serve => exact put r n _
  | shake h =>
    obtain ⟨s, s', -, -, rfl⟩ := handshakeTurn_eq_moved h
    exact put r n s'
  | shaken h =>
    obtain ⟨s, s', -, -, rfl⟩ := handshakeTurn_eq_finished h
    exact put r n s'
  | read h =>
    obtain ⟨s, c, c', -, -, -, rfl⟩ := readerTurn_eq_some h
    exact put r n _

end SameShelf

/-! ### Handing out and taking out -/

variable {r : Sessions} {key : RepositoryKey} {n : Nat}

theorem mem_table_of_find? (h : r.find? key = some n) : (key, n) ∈ r.table := by
  obtain ⟨before, after, heq, -⟩ := List.lookup_eq_some_iff.mp h
  rw [heq]
  exact List.mem_append_right _ List.mem_cons_self

/-- The table that is left when sessions are taken out. -/
def remaining (r : Sessions) : EvictionCall → List (RepositoryKey × Nat)
  | .one key => (r.without key).table
  | .all => []

theorem table_evict (r : Sessions) (call : EvictionCall) :
    (Eviction.begin call r).2.table = r.remaining call ∧
      (Eviction.begin call r).2.all.length = r.all.length := by
  rcases hbegin : Eviction.begin call r with ⟨b, r'⟩
  cases Eviction.begins_of_begin hbegin with
  | missing hfind =>
    refine ⟨(List.filter_eq_self.mpr fun e he ↦ ?_).symm, rfl⟩
    have hne := List.lookup_eq_none_iff.mp hfind e he
    exact decide_eq_true (bne_iff_ne.mp hne).symm
  | @begun key m _ _ _ hclose | @atOnce key m _ _ _ hclose =>
    have hsame := SameShelf.beginOn (r.without key) m .close
    rw [hclose] at hsame
    exact ⟨hsame.table, hsame.size⟩
  | empty htable => exact ⟨htable, rfl⟩
  | all => exact ⟨rfl, rfl⟩

/-- What is left was there before. -/
theorem remaining_sublist (r : Sessions) (call : EvictionCall) :
    (r.remaining call).Sublist r.table := by
  cases call with
  | one key => exact List.filter_sublist
  | all => exact List.nil_sublist _

end Sessions

/-! ### What steps do to the table -/

/-- A session is handed out with an event. -/
def RegistryEvent.Hands (e : RegistryEvent) (n : Nat) : Prop :=
  (∃ key, e = .got key n) ∨ ∃ key, e = .found key (some n)

namespace RegistryWorld

variable {w w' : RegistryWorld} {e : RegistryEvent} {t more : List RegistryEvent} {root : Path}
  {options : SessionOptions} {key : RepositoryKey} {n : Nat}

/-- What steps do to the table. -/
inductive Shelves (w : RegistryWorld) : RegistryEvent → RegistryWorld → Prop
  /-- Nothing is handed out or taken out, though it may be looked up. -/
  | same {e : RegistryEvent} {w' : RegistryWorld} (h : w.sessions.SameShelf w'.sessions)
      (hgot : ∀ key n, e ≠ .got key n)
      (hevicted : ∀ call i taken result, e ≠ .evicted call i taken result)
      (hfound : ∀ key found, e = .found key found → found = w.sessions.find? key) : Shelves w e w'
  /-- The session of a key is handed out; a look at it finds it open. -/
  | hand {key : RepositoryKey} {n : Nat} {s : Session} {w' : RegistryWorld}
      (hfind : w.sessions.find? key = some n) (hs : w.session? n = some s)
      (hopen : s.observe.state ≠ .closed) (hs' : w'.session? n = some s.observe)
      (h : w.sessions.SameShelf w'.sessions) : Shelves w (.got key n) w'
  /-- A session is made and handed out; the one that there was is closed. -/
  | make {key : RepositoryKey} {w' : RegistryWorld} {checkout : Path} {options : SessionOptions}
      (hclosed : ∀ m s, w.sessions.find? key = some m → w.session? m = some s →
        s.observe.state = .closed)
      (hs' : w'.session? w.sessions.all.length = some (Session.create key checkout options))
      (htable : w'.sessions.table =
        (w.sessions.without key).table ++ [(key, w.sessions.all.length)])
      (hsize : w'.sessions.all.length = w.sessions.all.length + 1) :
      Shelves w (.got key w.sessions.all.length) w'
  | take {i : Nat} {result : Option Bool} {w' : RegistryWorld} (call : EvictionCall)
      (htable : w'.sessions.table = w.sessions.remaining call)
      (hsize : w'.sessions.all.length = w.sessions.all.length) :
      Shelves w (.evicted call i (w.sessions.takenBy call) result) w'

/-- A session is made for a key whose session, if there is one, is closed. -/
theorem shelves_make {r : Sessions} (h : w.sessions.SameShelf r)
    (hclosed : ∀ m s, w.sessions.find? key = some m → w.session? m = some s →
      s.observe.state = .closed) :
    Shelves w (.got key (r.make key).1) { w with sessions := (r.make key).2 } := by
  have hnumber : (r.make key).1 = w.sessions.all.length := h.size
  rw [hnumber]
  refine .make hclosed
    (?_ : _ = some (Session.create key (key.checkoutPath r.root) r.options)) ?_ ?_
  · exact (r.session?_make key _).trans (if_pos h.size.symm)
  · simp only [Sessions.make, Sessions.without, h.table, h.size]
  · simp [Sessions.make, h.size]

theorem shelves_get (w : RegistryWorld) (key : RepositoryKey) :
    Shelves w (.got key (w.sessions.get key).1) { w with sessions := (w.sessions.get key).2 } := by
  simp only [Sessions.get]
  split
  · rename_i hfind
    exact shelves_make (.refl _) fun m s hm ↦ absurd (hfind.symm.trans hm).symm (Option.some_ne_none m)
  · rename_i m hfind
    have hlook := w.sessions.session?_change m m Session.observe
    rw [if_pos rfl] at hlook
    have hshelf := Sessions.SameShelf.change w.sessions m Session.observe
    split
    · rename_i hnone
      refine shelves_make hshelf fun m' s hm' hs ↦ ?_
      obtain rfl := Option.some.inj (hfind.symm.trans hm')
      have hs : w.sessions.session? m = some s := hs
      rw [hlook, hs] at hnone
      cases hnone
    · rename_i x hx
      obtain ⟨s, hs, rfl⟩ := Option.map_eq_some_iff.mp (hlook.symm.trans hx)
      split
      · rename_i hclosed
        refine shelves_make hshelf fun m' s' hm' hs' ↦ ?_
        obtain rfl := Option.some.inj (hfind.symm.trans hm')
        obtain rfl := Option.some.inj (hs.symm.trans hs')
        exact hclosed
      · rename_i hopen
        exact .hand hfind hs hopen hx hshelf

/-- Every step does one of these things. -/
theorem Step.shelves (h : Step w e w') : Shelves w e w' := by
  have hsame : ∀ {e : RegistryEvent} {w' : RegistryWorld}, w.sessions.SameShelf w'.sessions →
      (∀ key n, e ≠ .got key n) → (∀ call i taken result, e ≠ .evicted call i taken result) →
      (∀ key found, e ≠ .found key found) → Shelves w e w' :=
    fun h hgot hevicted hfound ↦ .same h hgot hevicted fun key found he ↦ absurd he (hfound key found)
  cases h with
  | get key => exact shelves_get w key
  | find key =>
    refine .same (.refl _) nofun nofun fun key' found he ↦ ?_
    obtain ⟨rfl, rfl⟩ := RegistryEvent.found.inj he
    rfl
  | evict call =>
    obtain ⟨htable, hsize⟩ := w.sessions.table_evict call
    exact .take call htable hsize
  | close fs hn h =>
    obtain ⟨m, c, c', -, hstep, -⟩ := Eviction.turn_eq_moved h
    exact hsame (.of_closingStep hstep) nofun nofun nofun
  | finish fs hn h =>
    obtain ⟨m, c, -, hstep, -⟩ := Eviction.turn_eq_finished h
    exact hsame (.of_closingStep hstep) nofun nofun nofun
  | abandon hn => exact hsame (.evictionDrop _ _) nofun nofun nofun
  | callBegin call hs => exact hsame (.beginOn _ _ _) nofun nofun nofun
  | callTurn fs hn h => exact hsame ((Sessions.SameShelf.turnOn ..).moved h) nofun nofun nofun
  | callEnd fs hn h => exact hsame ((Sessions.SameShelf.turnOn ..).finished h) nofun nofun nofun
  | callDrop hn => exact hsame (.change _ _ _) nofun nofun nofun
  | observe m => exact hsame (.change _ _ _) nofun nofun nofun
  | inside h => exact hsame (.of_background h) nofun nofun nofun
  | pass d => exact hsame (.refl _) nofun nofun nofun

/-! ### One session for a key -/

/-- The table has one session for a key, which is a session of this key. -/
structure Shelved (w : RegistryWorld) : Prop where
  keys : (w.sessions.table.map Prod.fst).Nodup
  sessions : ∀ key n, (key, n) ∈ w.sessions.table → ∃ s, w.session? n = some s ∧ s.key = key

/-- Two sessions of a key in the table are one. -/
theorem Shelved.eq_of_mem (h : w.Shelved) {n m : Nat} (hn : (key, n) ∈ w.sessions.table)
    (hm : (key, m) ∈ w.sessions.table) : n = m :=
  (Prod.mk.inj (List.inj_on_of_nodup_map h.keys hn hm rfl)).2

/-- What is found in the table. -/
theorem Shelved.find?_eq_some_iff (h : w.Shelved) :
    w.sessions.find? key = some n ↔ (key, n) ∈ w.sessions.table := by
  refine ⟨Sessions.mem_table_of_find?, fun hmem ↦ ?_⟩
  cases hfind : w.sessions.find? key with
  | none =>
    have hne := List.lookup_eq_none_iff.mp hfind _ hmem
    exact absurd rfl (bne_iff_ne.mp hne)
  | some m => exact congrArg some (h.eq_of_mem (Sessions.mem_table_of_find? hfind) hmem)

/-- The table has one session for a key after every run. -/
theorem shelved_of_run (h : Run Step (create root options) t w) : w.Shelved := by
  refine h.invariant (P := fun _ w ↦ w.Shelved) ⟨List.nodup_nil, by simp [create, Sessions.none]⟩ ?_
  intro t u e v hu hshelved hstep
  have hkept : ∀ key n, (key, n) ∈ u.sessions.table → ∃ s, v.session? n = some s ∧ s.key = key := by
    intro key n hn
    obtain ⟨s, hs, rfl⟩ := hshelved.sessions key n hn
    obtain ⟨s', hs', hlasts, -⟩ := lasting_of_run hu (Run.nil.snoc hstep) hs
    exact ⟨s', hs', hlasts.key⟩
  cases hstep.shelves with
  | same h | hand _ _ _ _ h => exact ⟨h.table ▸ hshelved.keys, h.table ▸ hkept⟩
  | @make key _ checkout options hclosed hs' htable hsize =>
    have hsub : (u.sessions.without key).table.Sublist u.sessions.table := List.filter_sublist
    refine ⟨?_, fun key' n hn ↦ ?_⟩
    · rw [htable, List.map_append]
      refine List.nodup_append'.mpr ⟨(hsub.map _).nodup hshelved.keys, List.nodup_singleton _, ?_⟩
      simp [Sessions.without]
    · rw [htable] at hn
      rcases List.mem_append.mp hn with hn | hn
      · exact hkept key' n (hsub.subset hn)
      · obtain ⟨rfl, rfl⟩ := Prod.mk.inj (List.mem_singleton.mp hn)
        exact ⟨_, hs', rfl⟩
  | take call htable =>
    have hsub := u.sessions.remaining_sublist call
    rw [← htable] at hsub
    exact ⟨(hsub.map _).nodup hshelved.keys, fun key n hn ↦ hkept key n (hsub.subset hn)⟩

/-! ### Sessions that are gone -/

/-- A session that is there, but not in the table. -/
structure Retired (n : Nat) (w : RegistryWorld) : Prop where
  lt : n < w.sessions.all.length
  notMem : ∀ key, (key, n) ∉ w.sessions.table

/-- A session that is not in the table is not handed out, and does not come back. -/
theorem Retired.step (h : w.Retired n) (hstep : Step w e w') : ¬ e.Hands n ∧ w'.Retired n := by
  cases hstep.shelves with
  | same hshelf hgot _ hfound =>
    refine ⟨?_, hshelf.size ▸ h.lt, hshelf.table ▸ h.notMem⟩
    rintro (⟨key, he⟩ | ⟨key, he⟩)
    · exact hgot key n he
    · exact h.notMem key (Sessions.mem_table_of_find? (hfound key _ he).symm)
  | @hand key m s _ hfind hs hopen hs' hshelf =>
    refine ⟨?_, hshelf.size ▸ h.lt, hshelf.table ▸ h.notMem⟩
    rintro (⟨key', he⟩ | ⟨key', he⟩)
    · obtain ⟨-, rfl⟩ := RegistryEvent.got.inj he
      exact h.notMem key (Sessions.mem_table_of_find? hfind)
    · cases he
  | @make key _ checkout options hclosed hs' htable hsize =>
    have hne : n ≠ w.sessions.all.length := Nat.ne_of_lt h.lt
    refine ⟨?_, hsize ▸ Nat.lt_succ_of_lt h.lt, fun key' hmem ↦ ?_⟩
    · rintro (⟨key', he⟩ | ⟨key', he⟩)
      · exact hne (RegistryEvent.got.inj he).2.symm
      · cases he
    · rw [htable] at hmem
      rcases List.mem_append.mp hmem with hmem | hmem
      · exact h.notMem key' (List.filter_sublist.subset hmem)
      · exact hne (Prod.mk.inj (List.mem_singleton.mp hmem)).2
  | take call htable hsize =>
    refine ⟨?_, hsize ▸ h.lt, fun key hmem ↦ ?_⟩
    · rintro (⟨key, he⟩ | ⟨key, he⟩) <;> cases he
    · rw [htable] at hmem
      exact h.notMem key ((w.sessions.remaining_sublist call).subset hmem)

theorem Retired.run (h : w.Retired n) (hrun : Run Step w more w') :
    (∀ e ∈ more, ¬ e.Hands n) ∧ w'.Retired n := by
  refine hrun.invariant (P := fun more w' ↦ (∀ e ∈ more, ¬ e.Hands n) ∧ w'.Retired n)
    ⟨fun _ he ↦ absurd he List.not_mem_nil, h⟩ ?_
  rintro more u e v - ⟨hmore, hretired⟩ hstep
  obtain ⟨he, hretired'⟩ := hretired.step hstep
  refine ⟨fun e' he' ↦ ?_, hretired'⟩
  rcases List.mem_append.mp he' with he' | he'
  · exact hmore e' he'
  · exact List.mem_singleton.mp he' ▸ he

end RegistryWorld

end CodeNav
