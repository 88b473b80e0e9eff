import CodeNav.Proofs.Server.Closings
import Mathlib.Data.List.Dedup
import Mathlib.Data.List.Perm.Subperm

/-!
# What those who ask for sessions may rely on

A session that is handed out is open, and it is handed out for its key again and again until it is closed
or taken out; then it never comes back. Whoever takes sessions out finds them closed when the call returns.
For each session that was made, a server is started once at most.

## Main definitions

* `RegistryWorld.Dependable`: what those who ask for sessions may rely on, after a history of events

## Main statements

* `RegistryWorld.got_of_step`: a session that is handed out is open and of its key
* `RegistryWorld.got_eq_iff`: the same session is handed out again, unless it was closed or taken out
* `RegistryWorld.launches_le`: servers are started for sessions that were made
* `RegistryWorld.dependable_of_run`: all of this holds after every run
-/

namespace CodeNav

namespace RegistryEvent

/-- A session of a key is taken out, if there is one. -/
def Removes (key : RepositoryKey) : RegistryEvent → Prop
  | evicted (.one k) _ _ _ => k = key
  | evicted .all _ _ _ => True
  | _ => False

/-- The session that is handed out for a key. -/
def got? (key : RepositoryKey) : RegistryEvent → Option Nat
  | got k n => if k = key then some n else none
  | _ => none

/-- The session for which the launcher is called. -/
def launch? : RegistryEvent → Option Nat
  | inside n (.launch _) => some n
  | _ => none

end RegistryEvent

namespace RegistryWorld

variable {w w' u v : RegistryWorld} {e : RegistryEvent} {t more mid : List RegistryEvent} {root : Path}
  {options : SessionOptions} {key : RepositoryKey} {n m : Nat}

/-- A look at a session finds it open. -/
def IsOpen (n : Nat) (w : RegistryWorld) : Prop :=
  ∃ s, w.session? n = some s ∧ s.observe.state ≠ .closed

/-- A session that is open was open before. -/
theorem IsOpen.of_run (h : Run Step (create root options) t w) (hmore : Run Step w more w')
    (hthere : ∃ s, w.session? n = some s) (hopen : w'.IsOpen n) : w.IsOpen n := by
  obtain ⟨s, hs⟩ := hthere
  obtain ⟨s', hs', hlasts, -⟩ := lasting_of_run h hmore hs
  obtain ⟨s'', hs'', hopen⟩ := hopen
  obtain rfl := Option.some.inj (hs'.symm.trans hs'')
  exact ⟨s, hs, fun hclosed ↦ hopen (hlasts.closed hclosed)⟩

/-! ### Handing out -/

/-- A session that is handed out is open, and in the table for its key. -/
theorem got_of_step (hstep : Step w (.got key n) w') :
    w'.IsOpen n ∧ (key, n) ∈ w'.sessions.table := by
  cases hstep.shelves with
  | same _ hgot => exact absurd rfl (hgot key n)
  | @hand _ _ s _ hfind hs hopen hs' hshelf =>
    refine ⟨⟨_, hs', ?_⟩, hshelf.table ▸ Sessions.mem_table_of_find? hfind⟩
    rwa [s.observe_observe]
  | make hclosed hs' htable =>
    refine ⟨⟨_, hs', nofun⟩, ?_⟩
    rw [htable]
    exact List.mem_append_right _ List.mem_cons_self

/-- The session of a key in the table is handed out just when it is open. -/
theorem got_eq_iff_isOpen (hshelved : w.Shelved) (hn : (key, n) ∈ w.sessions.table)
    (hstep : Step w (.got key m) w') : m = n ↔ w.IsOpen n := by
  have hfound := hshelved.find?_eq_some_iff.mpr hn
  cases hstep.shelves with
  | same _ hgot => exact absurd rfl (hgot key m)
  | hand hfind hs hopen =>
    obtain rfl := Option.some.inj (hfound.symm.trans hfind)
    exact ⟨fun _ ↦ ⟨_, hs, hopen⟩, fun _ ↦ rfl⟩
  | make hclosed =>
    obtain ⟨s, hs, -⟩ := hshelved.sessions key n hn
    have hlt : n < w.sessions.all.length := (List.getElem?_eq_some_iff.mp hs).1
    refine ⟨fun heq ↦ absurd heq.symm (Nat.ne_of_lt hlt), fun ⟨s', hs', hopen⟩ ↦ ?_⟩
    exact absurd (hclosed n s' hfound hs') hopen

/-- A session that is not in the table for its key is not in the table. -/
theorem retired_of_not_mem (hshelved : w.Shelved) {s : Session} (hs : w.session? n = some s)
    (hn : (s.key, n) ∉ w.sessions.table) : w.Retired n := by
  refine ⟨(List.getElem?_eq_some_iff.mp hs).1, fun key hmem ↦ ?_⟩
  obtain ⟨s', hs', rfl⟩ := hshelved.sessions key n hmem
  obtain rfl := Option.some.inj (hs.symm.trans hs')
  exact hn hmem

/-- A session that is taken out, with the others or as the one of its key, is gone. -/
theorem retired_of_removes (hshelved : w.Shelved) {s : Session} (hs : w.session? n = some s)
    (hremoves : e.Removes s.key) (hstep : Step w e w') : w'.Retired n := by
  have hlt : n < w.sessions.all.length := (List.getElem?_eq_some_iff.mp hs).1
  cases hstep.shelves with
  | same _ _ hevicted =>
    cases e with
    | evicted call i taken result => exact absurd rfl (hevicted call i taken result)
    | _ => exact absurd hremoves nofun
  | hand | make => exact absurd hremoves nofun
  | take call htable hsize =>
    refine ⟨hsize ▸ hlt, fun key hmem ↦ ?_⟩
    rw [htable] at hmem
    cases call with
    | all => cases hmem
    | one key' =>
      obtain ⟨hmem, hne⟩ := List.mem_filter.mp hmem
      obtain ⟨s', hs', rfl⟩ := hshelved.sessions key n hmem
      obtain rfl := Option.some.inj (hs.symm.trans hs')
      exact of_decide_eq_true hne hremoves.symm

/-- The session of a key stays in the table as long as it is open and not taken out. -/
theorem mem_table_of_run (h : Run Step (create root options) t u) (hn : (key, n) ∈ u.sessions.table)
    (hmore : Run Step u mid v) (hkept : ∀ e ∈ mid, ¬ e.Removes key) :
    (key, n) ∈ v.sessions.table ∨ ¬ v.IsOpen n := by
  have hthere : ∀ {x : RegistryWorld} {a : List RegistryEvent}, Run Step u a x →
      ∃ s, x.session? n = some s := by
    intro x a ha
    obtain ⟨s, hs, -⟩ := (shelved_of_run h).sessions key n hn
    obtain ⟨s', hs', -⟩ := lasting_of_run h ha hs
    exact ⟨s', hs'⟩
  refine hmore.invariant (P := fun a x ↦ (∀ e ∈ a, ¬ e.Removes key) →
    (key, n) ∈ x.sessions.table ∨ ¬ x.IsOpen n) (fun _ ↦ Or.inl hn) ?_ hkept
  intro a x e y hx ih hstep hkept
  have hshelved := shelved_of_run (h.append hx)
  rcases ih fun e he ↦ hkept e (List.mem_append_left _ he) with hmem | hclosed
  · cases hstep.shelves with
    | same hshelf | hand _ _ _ _ hshelf => exact Or.inl (hshelf.table ▸ hmem)
    | @make key' _ _ _ hclosed _ htable =>
      by_cases hkey : key' = key
      · -- A new session is made for the key only when the old one is closed.
        subst hkey
        refine Or.inr fun hopen ↦ ?_
        obtain ⟨s, hs, hopen⟩ := hopen.of_run (h.append hx) (Run.nil.snoc hstep) (hthere hx)
        exact hopen (hclosed n s (hshelved.find?_eq_some_iff.mpr hmem) hs)
      · refine Or.inl ?_
        rw [htable]
        exact List.mem_append_left _ (List.mem_filter.mpr ⟨hmem, decide_eq_true (Ne.symm hkey)⟩)
    | take call htable =>
      have hkeeps := hkept _ (List.mem_append_right _ List.mem_cons_self)
      cases call with
      | all => exact absurd True.intro hkeeps
      | one key' =>
        refine Or.inl ?_
        rw [htable]
        exact List.mem_filter.mpr ⟨hmem, decide_eq_true fun heq ↦ hkeeps heq.symm⟩
  · exact Or.inr fun hopen ↦
      hclosed (hopen.of_run (h.append hx) (Run.nil.snoc hstep) (hthere hx))

/-- The session that was handed out for a key is handed out again just when it was open all the time and
not taken out. -/
theorem got_eq_iff (h : Run Step (create root options) t w) (hfirst : Step w (.got key n) u)
    (hmid : Run Step u mid v) (hsecond : Step v (.got key m) w') :
    m = n ↔ (∀ e ∈ mid, ¬ e.Removes key) ∧ ∀ a b x, mid = a ++ b → Run Step u a x → Run Step x b v →
      x.IsOpen n := by
  have hu := h.snoc hfirst
  have hv := hu.append hmid
  obtain ⟨-, hmem⟩ := got_of_step hfirst
  obtain ⟨s, hs, rfl⟩ := (shelved_of_run hu).sessions key n hmem
  have hthere : ∀ {x : RegistryWorld} {a : List RegistryEvent}, Run Step u a x →
      ∃ s', x.session? n = some s' ∧ s'.key = s.key := by
    intro x a ha
    obtain ⟨s', hs', hlasts, -⟩ := lasting_of_run hu ha hs
    exact ⟨s', hs', hlasts.key⟩
  constructor
  · rintro rfl
    have hkept : ∀ e ∈ mid, ¬ e.Removes s.key := by
      intro e he hremoves
      obtain ⟨a, b, rfl⟩ := List.append_of_mem he
      obtain ⟨x, y, hx, hstep, -, hb⟩ := hmid.split
      obtain ⟨s', hs', hkey⟩ := hthere hx
      have hretired := retired_of_removes (shelved_of_run (hu.append hx)) hs' (hkey ▸ hremoves) hstep
      exact ((hretired.run hb).2.step hsecond).1 (Or.inl ⟨_, rfl⟩)
    refine ⟨hkept, ?_⟩
    rintro a b x rfl ha hb
    obtain ⟨s', hs', -⟩ := hthere ha
    refine IsOpen.of_run (hu.append ha) hb ⟨s', hs'⟩ ?_
    refine (got_eq_iff_isOpen (shelved_of_run hv) ?_ hsecond).mp rfl
    by_contra hnone
    obtain ⟨s'', hs'', hkey⟩ := hthere hmid
    exact ((retired_of_not_mem (shelved_of_run hv) hs'' (hkey ▸ hnone)).step hsecond).1
      (Or.inl ⟨_, rfl⟩)
  · rintro ⟨hkept, hopen⟩
    have hopen := hopen mid [] v (List.append_nil mid).symm hmid .nil
    have hmem' := (mem_table_of_run hu hmem hmid hkept).resolve_right fun h ↦ h hopen
    exact (got_eq_iff_isOpen (shelved_of_run hv) hmem' hsecond).mpr hopen

/-! ### Sessions that are gone -/

/-- Whoever takes sessions out, takes them out of the table. -/
theorem exists_removes_of_mem_taken {call : EvictionCall} {i : Nat} {taken : List Nat}
    {result : Option Bool} (hshelved : w.Shelved) (hstep : Step w (.evicted call i taken result) w')
    (hn : n ∈ taken) : ∃ s, w.session? n = some s ∧
      RegistryEvent.Removes s.key (.evicted call i taken result) := by
  cases hstep.shelves with
  | same _ _ hevicted => exact absurd rfl (hevicted call i taken result)
  | take =>
    cases call with
    | all =>
      obtain ⟨⟨key, n⟩, hmem, rfl⟩ := List.mem_map.mp hn
      obtain ⟨s, hs, -⟩ := hshelved.sessions key n hmem
      exact ⟨s, hs, True.intro⟩
    | one key =>
      have hfind : w.sessions.find? key = some n := by
        simpa [Sessions.takenBy] using hn
      obtain ⟨s, hs, hkey⟩ := hshelved.sessions key n (Sessions.mem_table_of_find? hfind)
      exact ⟨s, hs, hkey.symm⟩

/-- A session that was taken out is gone. -/
theorem retired_of_evicted {call : EvictionCall} {i : Nat} {taken : List Nat} {result : Option Bool}
    (h : Run Step (create root options) t w) (hstep : Step w (.evicted call i taken result) w')
    (hn : n ∈ taken) : w'.Retired n := by
  have hshelved := shelved_of_run h
  obtain ⟨s, hs, hremoves⟩ := exists_removes_of_mem_taken hshelved hstep hn
  exact retired_of_removes hshelved hs hremoves hstep

/-- A session is gone when another one was handed out for its key. -/
theorem retired_of_got (h : Run Step (create root options) t w) (hfirst : Step w (.got key n) u)
    (hmid : Run Step u mid v) (hsecond : Step v (.got key m) w') (hne : m ≠ n) : w'.Retired n := by
  have hu := h.snoc hfirst
  have hw' := (hu.append hmid).snoc hsecond
  have hshelved := shelved_of_run hw'
  obtain ⟨s, hs, rfl⟩ := (shelved_of_run hu).sessions key n (got_of_step hfirst).2
  obtain ⟨s', hs', hlasts, -⟩ := lasting_of_run hu (hmid.snoc hsecond) hs
  refine retired_of_not_mem hshelved hs' fun hmem ↦ hne ?_
  rw [hlasts.key] at hmem
  exact hshelved.eq_of_mem (got_of_step hsecond).2 hmem

/-! ### Launches -/

/-- Every session was handed out for its key. -/
theorem got_of_run (h : Run Step (create root options) t w) :
    ∀ n s, w.session? n = some s → n ∈ t.filterMap (RegistryEvent.got? s.key) := by
  refine h.invariant (P := fun t w ↦ ∀ n s, w.session? n = some s →
    n ∈ t.filterMap (RegistryEvent.got? s.key))
    (fun n s hs ↦ by simp [session?, create, Sessions.none, Sessions.session?] at hs) ?_
  intro t u e v hu ih hstep n s hs
  rw [List.filterMap_append, List.mem_append]
  by_cases hthere : ∃ s₀, u.session? n = some s₀
  · obtain ⟨s₀, hs₀⟩ := hthere
    obtain ⟨s', hs', hlasts, -⟩ := lasting_of_run hu (Run.nil.snoc hstep) hs₀
    obtain rfl := Option.some.inj (hs.symm.trans hs')
    exact Or.inl (hlasts.key ▸ ih n s₀ hs₀)
  · -- A session that was not there before was made, and handed out.
    have hge : u.sessions.all.length ≤ n := by
      by_contra hlt
      exact hthere ⟨_, List.getElem?_eq_getElem (Nat.lt_of_not_le hlt)⟩
    have hlt : n < v.sessions.all.length := (List.getElem?_eq_some_iff.mp hs).1
    cases hstep.shelves with
    | same hshelf | hand _ _ _ _ hshelf => exact absurd hlt (hshelf.size ▸ Nat.not_lt_of_le hge)
    | take _ _ hsize => exact absurd hlt (hsize ▸ Nat.not_lt_of_le hge)
    | make _ hs' _ hsize =>
      have hlt : n < u.sessions.all.length + 1 := hsize ▸ hlt
      obtain rfl : n = u.sessions.all.length := Nat.le_antisymm (Nat.le_of_lt_succ hlt) hge
      obtain rfl := Option.some.inj (hs.symm.trans hs')
      exact Or.inr (by simp [RegistryEvent.got?, Session.create])

/-- The launcher is called for a session that was not launched before, and then never again. -/
theorem launch_of_step {spec : LaunchSpec} (hstep : Step w (.inside n (.launch spec)) w') :
    w.Launchable n ∧ ¬ w'.Launchable n := by
  cases hstep with
  | inside hback =>
    cases hback with
    | @launch s _ hs hspec hidle =>
      refine ⟨⟨s, hs, Or.inr ⟨spec, hspec, hidle⟩⟩, fun ⟨s', hs', h⟩ ↦ ?_⟩
      obtain rfl := Option.some.inj (hs.symm.trans hs')
      rcases h with h | ⟨spec', -, h⟩
      · cases hspec.symm.trans h
      · simp at h

/-- The launcher is called once at most for a session, and for sessions that are there. -/
theorem launched_of_run (h : Run Step (create root options) t w) :
    (t.filterMap RegistryEvent.launch?).Nodup ∧ ∀ n ∈ t.filterMap RegistryEvent.launch?,
      (∃ s, w.session? n = some s) ∧ ¬ w.Launchable n := by
  refine h.invariant (P := fun t w ↦ (t.filterMap RegistryEvent.launch?).Nodup ∧
    ∀ n ∈ t.filterMap RegistryEvent.launch?, (∃ s, w.session? n = some s) ∧ ¬ w.Launchable n)
    ⟨List.nodup_nil, nofun⟩ ?_
  rintro t u e v hu ⟨hnodup, hlaunched⟩ hstep
  have hkept : ∀ n ∈ t.filterMap RegistryEvent.launch?,
      (∃ s, v.session? n = some s) ∧ ¬ v.Launchable n := by
    intro n hn
    obtain ⟨⟨s, hs⟩, hnot⟩ := hlaunched n hn
    obtain ⟨s', hs', -⟩ := lasting_of_run hu (Run.nil.snoc hstep) hs
    exact ⟨⟨s', hs'⟩, fun h ↦ hnot (launchable_of_run hu (Run.nil.snoc hstep) hs h)⟩
  rw [List.filterMap_append]
  by_cases hlaunch : ∃ n spec, e = .inside n (.launch spec)
  · obtain ⟨n, spec, rfl⟩ := hlaunch
    obtain ⟨⟨s, hs, hlaunchable⟩, hnot⟩ := launch_of_step hstep
    obtain ⟨s', hs', -⟩ := lasting_of_run hu (Run.nil.snoc hstep) hs
    have hnew : n ∉ t.filterMap RegistryEvent.launch? := fun hn ↦
      (hlaunched n hn).2 ⟨s, hs, hlaunchable⟩
    change (t.filterMap RegistryEvent.launch? ++ [n]).Nodup ∧ ∀ m ∈ _ ++ [n], _
    refine ⟨List.nodup_append'.mpr ⟨hnodup, List.nodup_singleton n, by simpa using hnew⟩, ?_⟩
    intro m hm
    rcases List.mem_append.mp hm with hm | hm
    · exact hkept m hm
    · obtain rfl := List.mem_singleton.mp hm
      exact ⟨⟨s', hs'⟩, hnot⟩
  · have hnone : e.launch? = none := by
      cases e with
      | inside n e =>
        cases e with
        | launch spec => exact absurd ⟨n, spec, rfl⟩ hlaunch
        | _ => rfl
      | _ => rfl
    rw [List.filterMap_cons_none hnone, List.filterMap_nil, List.append_nil]
    exact ⟨hnodup, hkept⟩

/-- How often the launcher was called for sessions of a key. -/
def launches (t : List RegistryEvent) (key : RepositoryKey) (w : RegistryWorld) : Nat :=
  (t.filterMap RegistryEvent.launch?).countP fun n ↦ (w.session? n).any (·.key = key)

/-- Servers are started for sessions that were made. -/
theorem launches_le (h : Run Step (create root options) t w) (key : RepositoryKey) :
    w.launches t key ≤ (t.filterMap (RegistryEvent.got? key)).dedup.length := by
  obtain ⟨hnodup, -⟩ := launched_of_run h
  rw [launches, List.countP_eq_length_filter]
  refine (List.subperm_of_subset (hnodup.filter _) fun n hn ↦ List.mem_dedup.mpr ?_).length_le
  obtain ⟨-, hkey⟩ := List.mem_filter.mp hn
  obtain ⟨s, hs, hkey⟩ := (Option.any_eq_true ..).mp hkey
  exact of_decide_eq_true hkey ▸ got_of_run h n s hs

/-! ### What those who ask may rely on -/

/-- What those who ask for sessions may rely on, after a history of events. -/
structure Dependable (root : Path) (options : SessionOptions) (t : List RegistryEvent)
    (w : RegistryWorld) : Prop where
  /-- A session that is handed out is open at that moment. -/
  opens : ∀ before key n after u, t = before ++ .got key n :: after →
    Run Step (create root options) (before ++ [.got key n]) u → Run Step u after w → u.IsOpen n
  /-- The same session is handed out again for a key just when it was open all the time and was not
  taken out. -/
  same : ∀ before key n mid m after u v, t = before ++ .got key n :: (mid ++ .got key m :: after) →
    Run Step (create root options) (before ++ [.got key n]) u → Run Step u mid v →
    Run Step v (.got key m :: after) w →
      (m = n ↔ (∀ e ∈ mid, ¬ e.Removes key) ∧ ∀ a b x, mid = a ++ b → Run Step u a x →
        Run Step x b v → x.IsOpen n)
  /-- A session that was taken out is not handed out any more. -/
  removed : ∀ before call i taken result after n,
    t = before ++ .evicted call i taken result :: after → n ∈ taken → ∀ e ∈ after, ¬ e.Hands n
  /-- A session is not handed out any more once another one was handed out for its key. -/
  replaced : ∀ before key n mid m after, t = before ++ .got key n :: (mid ++ .got key m :: after) →
    m ≠ n → ∀ e ∈ after, ¬ e.Hands n
  /-- When a call that takes sessions out returns, they are closed. -/
  closed : ∀ before e after u i any call taken result, t = before ++ e :: after →
    Run Step (create root options) (before ++ [e]) u → Run Step u after w →
    (e = .returned i any ∨ ∃ call taken, e = .evicted call i taken (some any)) →
    .evicted call i taken result ∈ before ++ [e] → ∀ n ∈ taken, u.IsClosed n
  /-- Servers are started at most as often as sessions were made. -/
  launched : ∀ key, w.launches t key ≤ (t.filterMap (RegistryEvent.got? key)).dedup.length

/-- In every run of those who ask for sessions, look them up, take them out, and use them, all may rely on
what is handed out and what is taken out. -/
theorem dependable_of_run (h : Run Step (create root options) t w) :
    Dependable root options t w where
  opens := by
    rintro before key n after u - hu -
    obtain ⟨x, -, hstep⟩ := hu.last
    exact (got_of_step hstep).1
  same := by
    rintro before key n mid m after u v - hu hmid hafter
    obtain ⟨x, hx, hfirst⟩ := hu.last
    obtain ⟨w', hsecond, -⟩ := hafter.first
    exact got_eq_iff hx hfirst hmid hsecond
  removed := by
    rintro before call i taken result after n rfl hn
    obtain ⟨u, v, hu, hstep, -, hafter⟩ := h.split
    exact ((retired_of_evicted hu hstep hn).run hafter).1
  replaced := by
    rintro before key n mid m after rfl hne
    obtain ⟨x, u, hx, hfirst, -, hrest⟩ := h.split
    obtain ⟨v, y, hmid, hsecond, -, hafter⟩ := hrest.split
    exact ((retired_of_got hx hfirst hmid hsecond hne).run hafter).1
  closed := by
    rintro before e after u i any call taken result - hu - he hmem n hn
    obtain ⟨x, hx, hstep⟩ := hu.last
    exact closed_of_returned hx hstep he hmem hn
  launched := launches_le h

/-- The session of a key is handed out and found until it is taken out; then there is another one. -/
theorem dependable_replaced : ∃ w, Run Step (create ⟨"/c"⟩ default)
      [.got default 0, .found default (some 0), .evicted (.one default) 0 [0] (some true),
        .found default none, .got default 1] w ∧
    Dependable ⟨"/c"⟩ default
      [.got default 0, .found default (some 0), .evicted (.one default) 0 [0] (some true),
        .found default none, .got default 1] w := by
  have hbegin : Run Step (create ⟨"/c"⟩ default) [] (create ⟨"/c"⟩ default) := .nil
  have hrun := (((hbegin.snoc (.get default)).snoc (.find default)).snoc (.evict (.one default))).snoc
    (.find default)
  exact ⟨_, hrun.snoc (.get default), dependable_of_run (hrun.snoc (.get default))⟩

end RegistryWorld

end CodeNav
