import CodeNav.Proofs.Server.Farewells

/-!
# Sessions that settle

Whatever is done to sessions keeps their servers. As long as nobody takes sessions out, those of the table
stay there until they are closed, and no call closes a session whose server can still be told to exit.

## Main definitions

* `Sessions.Keeps`: what may become of sessions, so far as their servers are concerned
* `Sessions.Settles`: what may become of them while none of them is taken out

## Main statements

* `Sessions.Settles.of_used`, `Sessions.Settles.dropOn`, `Sessions.Settles.of_background`: sessions settle
  while they are used, when calls are given up, and by themselves
* `Sessions.Offers.of_begin`: only taking out takes open sessions from the table
* `Sessions.leaves_of_begin`, `Sessions.leaves_of_closingStep`: whoever takes a session out may tell its
  server to exit
* `Sessions.dismissed_of_closingStep`: and has done so when closing the session is over
-/

namespace CodeNav

namespace Sessions

variable {r r' r'' : Sessions} {s s' : Session} {n m : Nat} {fs : FileSystem} {now : Nat}
  {key : RepositoryKey}

/-! ### Servers that are kept -/

/-- A session may be handed out. -/
def Offers (r : Sessions) (n : Nat) : Prop := ∃ key, (key, n) ∈ r.table

def IsClosed (r : Sessions) (n : Nat) : Prop := ∃ s, r.session? n = some s ∧ s.state = .closed

/-- What may become of sessions, so far as their servers are concerned. -/
structure Keeps (r r' : Sessions) : Prop where
  evolves : r.Evolves r'
  keeps : ∀ n s, r.session? n = some s → s.Based → ∃ s', r'.session? n = some s' ∧ s.Keeps s'
  made : ∀ n s, r.all.length ≤ n → r'.session? n = some s → s.Based

/-- What may become of sessions while none of them is taken out. -/
structure Settles (r r' : Sessions) : Prop extends Keeps r r' where
  offers : (r.table.map Prod.fst).Nodup → ∀ n, n < r'.all.length →
    (n < r.all.length → r.Offers n) → r'.Offers n ∨ r'.IsClosed n
  quits : ∀ n s s', r.session? n = some s → r'.session? n = some s' → s.Based → s.Quits s'

/-- Servers that take no messages take none later. -/
def StayBroken (r r' : Sessions) : Prop :=
  ∀ n s s' c c', r.session? n = some s → r'.session? n = some s' → s.client = some c →
    s'.client = some c' → c.wire.accepts = false → c'.wire.accepts = false

theorem exists_session? (h : n < r.all.length) : ∃ s, r.session? n = some s :=
  ⟨r.all[n], List.getElem?_eq_getElem h⟩

theorem lt_of_session? (h : r.session? n = some s) : n < r.all.length :=
  (List.getElem?_eq_some_iff.mp h).1

theorem IsClosed.of_evolves (h : r.IsClosed n) (hevolves : r.Evolves r') : r'.IsClosed n := by
  obtain ⟨s, hs, hclosed⟩ := h
  obtain ⟨s', hs', hlasts⟩ := hevolves.closed n s hs
  exact ⟨s', hs', hlasts hclosed⟩

namespace Keeps

theorem refl (r : Sessions) : r.Keeps r :=
  ⟨.refl r, fun _ s hs hbased ↦ ⟨s, hs, hbased.keeps_self⟩,
    fun _ _ hle hs ↦ absurd (lt_of_session? hs) (Nat.not_lt.mpr hle)⟩

theorem trans (h : r.Keeps r') (h' : r'.Keeps r'') : r.Keeps r'' where
  evolves := h.evolves.trans h'.evolves
  keeps n s hs hbased := by
    obtain ⟨s', hs', hkeeps⟩ := h.keeps n s hs hbased
    obtain ⟨s'', hs'', hkeeps'⟩ := h'.keeps n s' hs' hkeeps.based
    exact ⟨s'', hs'', hkeeps.trans hkeeps'⟩
  made n s'' hle hs'' := by
    by_cases hlt : n < r'.all.length
    · obtain ⟨s', hs'⟩ := exists_session? hlt
      obtain ⟨x, hx, hkeeps⟩ := h'.keeps n s' hs' (h.made n s' hle hs')
      obtain rfl := Option.some.inj (hx.symm.trans hs'')
      exact hkeeps.based
    · exact h'.made n s'' (Nat.not_lt.mp hlt) hs''

/-- One session has changed. -/
theorem put (hs : r.session? n = some s) (hclosed : s.state = .closed → s'.state = .closed)
    (hkeeps : s.Based → s.Keeps s') : r.Keeps (r.put n s') where
  evolves := .put hs hclosed
  keeps m x hx hbased := by
    rw [session?_put hs]
    split
    · rename_i heq
      subst heq
      obtain rfl := Option.some.inj (hs.symm.trans hx)
      exact ⟨s', rfl, hkeeps hbased⟩
    · exact ⟨x, hx, hbased.keeps_self⟩
  made m x hle hx := by
    have hlt : m < (r.put n s').all.length := lt_of_session? hx
    have hsize : (r.put n s').all.length = r.all.length := (SameShelf.put r n s').size
    exact absurd (hsize ▸ hlt) (Nat.not_lt.mpr hle)

/-- Sessions that are no longer handed out. -/
theorem of_table (r : Sessions) {table : List (RepositoryKey × Nat)} (h : table.Sublist r.table) :
    r.Keeps { r with table := table } :=
  ⟨.of_table r h, fun _ s hs hbased ↦ ⟨s, hs, hbased.keeps_self⟩,
    fun _ _ hle hs ↦ absurd (lt_of_session? hs) (Nat.not_lt.mpr hle)⟩

theorem beginOn (r : Sessions) (n : Nat) (call : SessionCall) : r.Keeps (r.beginOn n call).2 := by
  simp only [Sessions.beginOn]
  split
  · exact .refl r
  · rename_i s hs
    exact .put hs (Session.closed_begin call) fun hbased ↦ hbased.keeps_begin call

theorem turnOn (r : Sessions) (fs : FileSystem) (now n : Nat) (phase : SessionPhase) :
    (r.turnOn fs now n phase).Leads r.Keeps := by
  simp only [Sessions.turnOn]
  split
  · exact .refl r
  · rename_i s hs
    have hbeside := s.leads_turn fs now phase
    refine Turn.leads_lift (Turn.leads_iff.mpr ⟨fun phase' s' hturn ↦ ?_, fun result s' hturn ↦ ?_⟩)
    · exact .put hs (hbeside.moved hturn).closed fun hbased ↦
        (hbased.keeps_turn fs now phase).moved hturn
    · exact .put hs (hbeside.finished hturn).closed fun hbased ↦
        (hbased.keeps_turn fs now phase).finished hturn

theorem admitsClosing : AdmitsClosing Keeps where
  refl := refl
  trans := trans
  beginOn r n := beginOn r n .close
  turnOn := turnOn

theorem evict (r : Sessions) (call : EvictionCall) : r.Keeps (Eviction.begin call r).2 :=
  admitsClosing.evict of_table r call

theorem closingStep {c c' : Closing} (h : Closing.Step fs now n r c c' r') : r.Keeps r' :=
  admitsClosing.closingStep h

end Keeps

namespace Settles

theorem refl (r : Sessions) : r.Settles r where
  toKeeps := .refl r
  offers _ _ hlt hoffers := Or.inl (hoffers hlt)
  quits n s s' hs hs' _ := by
    obtain rfl := Option.some.inj (hs.symm.trans hs')
    exact Session.quits_of_state rfl

theorem trans (h : r.Settles r') (h' : r'.Settles r'') : r.Settles r'' where
  toKeeps := h.toKeeps.trans h'.toKeeps
  offers hkeys n hlt hoffers := by
    by_cases hmiddle : n < r'.all.length
    · rcases h.offers hkeys n hmiddle hoffers with hoffered | hclosed
      · exact h'.offers (h.evolves.keys hkeys) n hlt fun _ ↦ hoffered
      · exact Or.inr (hclosed.of_evolves h'.evolves)
    · exact h'.offers (h.evolves.keys hkeys) n hlt fun hlt ↦ absurd hlt hmiddle
  quits n s s'' hs hs'' hbased := by
    obtain ⟨s', hs', hkeeps⟩ := h.keeps n s hs hbased
    obtain ⟨x, hx, hkeeps'⟩ := h'.keeps n s' hs' hkeeps.based
    obtain rfl := Option.some.inj (hx.symm.trans hs'')
    exact (h.quits n s s' hs hs' hbased).trans hkeeps (h'.quits n s' x hs' hx hkeeps.based) hkeeps'

/-- Sessions that neither come nor go. -/
theorem of_sameShelf (h : r.Keeps r') (hshelf : r.SameShelf r')
    (hquits : ∀ n s s', r.session? n = some s → r'.session? n = some s' → s.Based → s.Quits s') :
    r.Settles r' where
  toKeeps := h
  offers _ n hlt hoffers := by
    obtain ⟨key, hmem⟩ := hoffers (hshelf.size ▸ hlt)
    exact Or.inl ⟨key, hshelf.table ▸ hmem⟩
  quits := hquits

/-- One session has changed. -/
theorem put (hs : r.session? n = some s) (hclosed : s.state = .closed → s'.state = .closed)
    (hkeeps : s.Based → s.Keeps s') (hquits : s.Based → s.Quits s') : r.Settles (r.put n s') := by
  refine of_sameShelf (.put hs hclosed hkeeps) (.put r n s') fun m x x' hx hx' hbased ↦ ?_
  rw [session?_put hs] at hx'
  split at hx'
  · rename_i heq
    subst heq
    obtain rfl := Option.some.inj (hs.symm.trans hx)
    obtain rfl := Option.some.inj hx'
    exact hquits hbased
  · obtain rfl := Option.some.inj (hx.symm.trans hx')
    exact Session.quits_of_state rfl

theorem change (r : Sessions) (n : Nat) {f : Session → Session}
    (hclosed : ∀ s, s.state = .closed → (f s).state = .closed)
    (hkeeps : ∀ s : Session, s.Based → s.Keeps (f s)) (hquits : ∀ s : Session, s.Quits (f s)) :
    r.Settles (r.change n f) := by
  cases hs : r.session? n with
  | none =>
    have hsame : r.change n f = r := by
      simp only [Sessions.change, List.modify_eq_self (List.getElem?_eq_none_iff.mp hs)]
    rw [hsame]
    exact .refl r
  | some s =>
    have hput : r.change n f = r.put n (f s) := by
      have hs : r.all[n]? = some s := hs
      simp [Sessions.change, Sessions.put, List.modify_eq_set_getElem?, hs]
    rw [hput]
    exact .put hs (hclosed s) (hkeeps s) fun _ ↦ hquits s

/-- A session is made for a key whose sessions are closed. -/
theorem make (r : Sessions) (key : RepositoryKey)
    (hold : (r.table.map Prod.fst).Nodup → ∀ n, n < r.all.length → (key, n) ∈ r.table →
      r.IsClosed n) : r.Settles (r.make key).2 := by
  have hsession := r.session?_make key
  have hkept : ∀ m s, r.session? m = some s → (r.make key).2.session? m = some s := by
    intro m s hs
    rw [hsession, if_neg (Nat.ne_of_lt (lt_of_session? hs)), hs]
  refine ⟨⟨evolves_make r key, fun m s hs hbased ↦ ⟨s, hkept m s hs, hbased.keeps_self⟩, ?_⟩, ?_, ?_⟩
  · intro m s hle hs
    rw [hsession] at hs
    split at hs
    · obtain rfl := Option.some.inj hs
      exact Session.based_create ..
    · exact absurd (lt_of_session? hs) (Nat.not_lt.mpr hle)
  · intro hkeys m hlt hoffers
    by_cases hnew : m = r.all.length
    · exact Or.inl ⟨key, List.mem_append_right _ (List.mem_singleton.mpr (hnew ▸ rfl))⟩
    · have hsize : (r.make key).2.all.length = r.all.length + 1 := by simp [Sessions.make]
      have hmade : m < r.all.length := by omega
      obtain ⟨key', hmem⟩ := hoffers hmade
      by_cases hkey : key' = key
      · subst hkey
        exact Or.inr ((hold hkeys m hmade hmem).of_evolves (evolves_make r key'))
      · refine Or.inl ⟨key', List.mem_append_left _ (List.mem_filter.mpr ⟨hmem, ?_⟩)⟩
        simpa using hkey
  · intro m s s' hs hs' _
    obtain rfl := Option.some.inj ((hkept m s hs).symm.trans hs')
    exact Session.quits_of_state rfl

theorem get (r : Sessions) (key : RepositoryKey) : r.Settles (r.get key).2 := by
  have hlook : ∀ n, r.Settles (r.change n Session.observe) := fun n ↦
    .change r n (fun s ↦ s.beside_observe.closed)
      (fun s hbased ↦ hbased.keeps_of_beside s.beside_observe (Session.keepsClient_of_eq s.client_observe))
      Session.quits_observe
  simp only [Sessions.get]
  split
  · rename_i hnone
    exact .make r key fun _ n _ hmem ↦
      absurd rfl (bne_iff_ne.mp (List.lookup_eq_none_iff.mp hnone (key, n) hmem))
  · rename_i n hfind
    have hentry : ∀ m, (r.table.map Prod.fst).Nodup → (key, m) ∈ r.table → m = n := fun m hkeys hmem ↦
      (Prod.mk.inj (List.inj_on_of_nodup_map hkeys hmem (mem_table_of_find? hfind) rfl)).2
    split
    · rename_i hnone
      refine (hlook n).trans (.make _ key fun hkeys m hlt hmem ↦ ?_)
      obtain ⟨s, hs⟩ := exists_session? hlt
      rw [hentry m hkeys hmem, hnone] at hs
      cases hs
    · rename_i s hs
      split
      · rename_i hclosed
        refine (hlook n).trans (.make _ key fun hkeys m _ hmem ↦ ?_)
        obtain rfl := hentry m hkeys hmem
        exact ⟨s, hs, hclosed⟩
      · exact hlook n

theorem beginOn (r : Sessions) (n : Nat) {call : SessionCall} (hcall : call.closes = false) :
    r.Settles (r.beginOn n call).2 := by
  simp only [Sessions.beginOn]
  split
  · exact .refl r
  · rename_i s hs
    exact .put hs (Session.closed_begin call) (fun hbased ↦ hbased.keeps_begin call)
      fun _ ↦ (s.begins_begin call).quits hcall

theorem turnOn (r : Sessions) (fs : FileSystem) (now n : Nat) {phase : SessionPhase}
    (hphase : phase.closes = false) : (r.turnOn fs now n phase).Leads r.Settles := by
  simp only [Sessions.turnOn]
  split
  · exact .refl r
  · rename_i s hs
    have hbeside := s.leads_turn fs now phase
    have hkeeps : s.Based → (s.turn fs now phase).Leads s.Keeps := fun hbased ↦
      hbased.keeps_turn fs now phase
    refine Turn.leads_lift (Turn.leads_iff.mpr ⟨fun phase' s' hturn ↦ ?_, fun result s' hturn ↦ ?_⟩)
    · exact .put hs (hbeside.moved hturn).closed (fun hbased ↦ (hkeeps hbased).moved hturn)
        fun _ ↦ (Session.goes_of_turn hturn).quits hphase
    · exact .put hs (hbeside.finished hturn).closed (fun hbased ↦ (hkeeps hbased).finished hturn)
        fun _ ↦ (Session.ends_of_turn hturn).quits hphase

theorem dropOn (r : Sessions) (n : Nat) (phase : SessionPhase) : r.Settles (r.dropOn n phase) :=
  .change r n (fun s ↦ (s.beside_drop phase).closed)
    (fun s hbased ↦ hbased.keeps_of_beside (s.beside_drop phase) (s.keepsClient_drop phase))
    fun s ↦ Session.quits_of_state (s.state_drop phase)

/-- Sessions that are used by calls that do not close them. -/
theorem of_used (h : r.Used False r') : r.Settles r' := by
  induction h with
  | refl => exact .refl r
  | get _ key ih => exact ih.trans (.get _ key)
  | begun _ n hcall ih => exact ih.trans (.beginOn _ n (hcall.resolve_left id))
  | goes _ hphase hturn ih => exact ih.trans ((turnOn _ _ _ _ (hphase.resolve_left id)).moved hturn)
  | ends _ hphase hturn ih => exact ih.trans ((turnOn _ _ _ _ (hphase.resolve_left id)).finished hturn)

theorem of_handshake (h : r.handshakeTurn now n = .moved () r' ∨ r.handshakeTurn now n = .finished () r') :
    r.Settles r' := by
  obtain ⟨s, s', hs, rfl, hturn⟩ : ∃ s s', r.session? n = some s ∧ r' = r.put n s' ∧
      (s.handshakeTurn now = .moved () s' ∨ s.handshakeTurn now = .finished () s') := by
    rcases h with h | h
    · obtain ⟨s, s', hs, hturn, rfl⟩ := handshakeTurn_eq_moved h
      exact ⟨s, s', hs, rfl, Or.inl hturn⟩
    · obtain ⟨s, s', hs, hturn, rfl⟩ := handshakeTurn_eq_finished h
      exact ⟨s, s', hs, rfl, Or.inr hturn⟩
  refine .put hs (fun hclosed ↦ ?_) (fun hbased ↦ hbased.keeps_handshakeTurn hturn)
    fun _ ↦ Session.quits_handshakeTurn hturn
  have hlasts : (s.handshakeTurn now).Leads fun s' ↦ s'.state = .closed :=
    Session.closed_handshakeTurn hclosed
  rcases hturn with hturn | hturn <;> rwa [hturn] at hlasts

/-- What goes on by itself, as long as servers that take no messages take none later. -/
theorem of_background {e : SessionEvent} {launching launching' : Nat → Option LaunchSpec}
    (h : Background now n r launching e r' launching') (hbroken : r.StayBroken r') : r.Settles r' := by
  have hevolves := evolves_background h
  cases h with
  | launch => exact .refl r
  | launched started hs hspec =>
    exact .put hs (Session.closed_launched started) (fun hbased ↦ hbased.keeps_launched hspec started)
      fun hbased ↦ Session.quits_of_none (hbased.launching _ hspec)
  | @serve s c bytes accepts ended hs hclient =>
    refine .put hs id (fun hbased ↦ hbased.keeps_withClient hclient ⟨id, fun hrefuses ↦ ?_, ?_⟩)
      fun _ ↦ Session.quits_of_state rfl
    · exact hbroken n s _ c _ hs (session?_put_self hs _) hclient rfl hrefuses
    · exact List.Subset.refl _
  | shake h => exact of_handshake (Or.inl h)
  | shaken h => exact of_handshake (Or.inr h)
  | read h =>
    obtain ⟨s, c, c', hs, hclient, hread, rfl⟩ := readerTurn_eq_some h
    exact .put hs id (fun hbased ↦ hbased.keeps_withClient hclient (Client.keeps_readerTurn hread))
      fun _ ↦ Session.quits_of_state rfl

end Settles

/-! ### Taking out -/

/-- Taking sessions out takes them from the table, and leaves the others there. -/
theorem Offers.of_begin {call : EvictionCall} {b : Eviction ⊕ Bool} (h : r.Offers n)
    (hkeys : (r.table.map Prod.fst).Nodup) (hbegin : Eviction.begin call r = (b, r')) :
    r'.Offers n ∨ n ∈ r.takenBy call := by
  obtain ⟨key, hmem⟩ := h
  have htable : r'.table = r.remaining call := by
    have htable := (r.table_evict call).1
    rwa [hbegin] at htable
  cases call with
  | all => exact Or.inr (List.mem_map_of_mem hmem)
  | one taken =>
    by_cases hkey : key = taken
    · subst hkey
      refine Or.inr ?_
      cases hfind : r.find? key with
      | none => exact absurd rfl (bne_iff_ne.mp (List.lookup_eq_none_iff.mp hfind (key, n) hmem))
      | some m =>
        obtain ⟨-, rfl⟩ := Prod.mk.inj
          (List.inj_on_of_nodup_map hkeys hmem (mem_table_of_find? hfind) rfl)
        simp [takenBy, hfind]
    · refine Or.inl ⟨key, ?_⟩
      rw [htable]
      exact List.mem_filter.mpr ⟨hmem, by simpa using hkey⟩

/-- Closing a session begins by asking its server to shut down, or tells it to exit. -/
theorem leaves_of_beginClose {b : SessionPhase ⊕ SessionResult} (hs : r.session? m = some s)
    (h : r.beginOn m .close = (b, r')) : ∃ s', r' = r.put m s' ∧ s.Leaves s' b.getLeft? := by
  simp only [beginOn, hs] at h
  obtain ⟨rfl, rfl⟩ := Prod.mk.inj h
  exact ⟨_, rfl, s.leaves_begin⟩

/-- Closing a session further may tell its server to exit. -/
theorem leaves_of_closingStep {c c' : Closing} (h : Closing.Step fs now m r c c' r')
    (hs : r.session? m = some s) (hc : c.Closes s) :
    ∃ s', r' = r.put m s' ∧ s.Leaves s' c'.phase? := by
  cases h with
  | begun h | atOnce h => exact leaves_of_beginClose hs h
  | goesOn h =>
    rw [turnOn_eq_lift hs] at h
    obtain ⟨s', hturn, rfl⟩ := Turn.lift_eq_moved.mp h
    refine ⟨s', rfl, Session.leaves_of_goes (Session.goes_of_turn hturn) ?_⟩
    rcases hc with ⟨call, rfl⟩ | ⟨⟨note, rfl⟩, -⟩ <;> rfl
  | ends h =>
    rw [turnOn_eq_lift hs] at h
    obtain ⟨s', hturn, rfl⟩ := Turn.lift_eq_finished.mp h
    exact ⟨s', rfl, Session.leaves_of_finished hturn hc⟩

/-- Taking a session out may tell its server to exit. -/
theorem leaves_of_begin {call : EvictionCall} {b : Eviction ⊕ Bool}
    (hsessions : ∀ key n, (key, n) ∈ r.table → ∃ s, r.session? n = some s)
    (h : Eviction.begin call r = (b, r')) :
    r'.all = r.all ∨ ∃ m s s' after, r.session? m = some s ∧ r'.all = (r.put m s').all ∧
      s.Leaves s' after ∧ ∀ phase, after = some phase →
        ∃ e, b = .inl e ∧ (m, .going phase) ∈ e.closings := by
  cases Eviction.begins_of_begin h with
  | missing | empty | all => exact Or.inl rfl
  | @begun key m phase _ hfind hclose =>
    obtain ⟨s, hs⟩ := hsessions key m (mem_table_of_find? hfind)
    have hs' : (r.without key).session? m = some s := hs
    obtain ⟨s', rfl, hleaves⟩ := leaves_of_beginClose hs' hclose
    refine Or.inr ⟨m, s, s', some phase, hs, rfl, hleaves, fun phase' hphase' ↦ ⟨_, rfl, ?_⟩⟩
    obtain rfl := Option.some.inj hphase'
    exact List.mem_singleton.mpr rfl
  | @atOnce key m _ _ hfind hclose =>
    obtain ⟨s, hs⟩ := hsessions key m (mem_table_of_find? hfind)
    have hs' : (r.without key).session? m = some s := hs
    obtain ⟨s', rfl, hleaves⟩ := leaves_of_beginClose hs' hclose
    exact Or.inr ⟨m, s, s', Option.none, hs, rfl, hleaves, nofun⟩

/-- A call that tells a server to exit is over when it has done so. -/
theorem dismissed_of_closingStep {note : Note} {c' : Closing}
    (h : Closing.Step fs now m r (.going (.exiting note)) c' r') (hs : r.session? m = some s)
    (hmessage : note.message = Client.noteMessage "exit" .null) :
    ∃ s' c, r'.session? m = some s' ∧ s'.client = some c ∧ c.Dismissed := by
  cases h with
  | goesOn h =>
    obtain ⟨s₀, s', -, hturn, -⟩ := turnOn_eq_moved h
    cases Session.goes_of_turn hturn
  | ends h =>
    rw [turnOn_eq_lift hs] at h
    obtain ⟨s', hturn, rfl⟩ := Turn.lift_eq_finished.mp h
    obtain ⟨c, hc, hdismissed⟩ := Session.dismissed_of_finished hturn hmessage
    exact ⟨s', c, session?_put_self hs s', hc, hdismissed⟩

end Sessions

end CodeNav
