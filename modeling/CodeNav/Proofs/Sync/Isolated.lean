import CodeNav.Proofs.Sync.Outcomes
import CodeNav.Proofs.Sync.Parts

/-!
# Repositories are on their own

What is seen of one repository while there is work on many is what is seen when there are only its own calls:
these go on in the same way, with the same commands and invalidations, and come to the same results; and its
checkout and its log are the same. A call waits for calls on its own repository only, and shares the outcome
of such a call only.

## Main definitions

* `SharedWorld.Part`: the calls on a repository as a part of all calls
* `SharedWorld.Parks`: a call that has to wait

## Main statements

* `SharedWorld.Part.step`: every step comes to the same in the part, or leaves it alone
* `SharedWorld.isolated_of_run`: what is seen of one repository
-/

namespace CodeNav

variable {o : SyncOptions} {E : o.Estate} {R : Runner} {key : RepositoryKey} {hkey : E.used key}
  {calls own own' : List Nat} {i n : Nat} {k k' : CheckoutCall} {e : SharedEvent}

/-- What is asked for by a call is asked for its repository. -/
theorem CheckoutCall.key_of_wants {command : Command} {wanted : RepositoryKey}
    (h : k.wants = .command command wanted) : wanted = k.key := by
  match k with
  | .sync ⟨t, phase⟩ =>
    cases phase with
    | running => exact (SyncWant.command.inj h).2.symm
    | _ => cases h
  | .removal ⟨key, path, phase⟩ => cases phase <;> cases h

/-- While a command is run for a call, the folder above the checkout is there. -/
theorem CheckoutCall.needsFolder_of_wants {command : Command} {wanted : RepositoryKey}
    (h : k.wants = .command command wanted) : k.needsFolder = true := by
  match k with
  | .sync ⟨t, phase⟩ =>
    cases phase with
    | running => rfl
    | _ => cases h
  | .removal ⟨key, path, phase⟩ => cases phase <;> cases h

namespace SharedWorld

variable {w w' w₁ w₁' : SharedWorld} {c c' : Checkouts} {fs : FileSystem} {t : List SharedEvent}

/-- The same call, which may be over, in the part. -/
inductive Same (o : SyncOptions) (key : RepositoryKey) (own : List Nat) :
    Option CheckoutCall → Option CheckoutCall → Prop
  | gone : Same o key own none none
  | active {k k' : CheckoutCall} (h : k.Matches own k') (hkey : k.key = key)
      (hpath : k.path = key.checkoutPath o.root) : Same o key own (some k) (some k')

theorem Same.mono {a b : Option CheckoutCall} (h : Same o key own a b) (hown : own <+: own') :
    Same o key own' a b := by
  cases h with
  | gone => exact .gone
  | active h hkey hpath => exact .active (h.mono hown) hkey hpath

/-- Nothing has happened to calls but to one of them. -/
structure OnlyAt (n : Nat) (w w₁ : SharedWorld) : Prop where
  now : w₁.now = w.now
  calls : ∀ m, m ≠ n → w₁.calls[m]? = w.calls[m]?
  acts : ∀ m, m ≠ n → w₁.acts m = w.acts m

theorem onlyAt_begin (w : SharedWorld) (k : CheckoutCall) (c : Checkouts) :
    OnlyAt w.calls.length w (w.begin k c) where
  now := rfl
  calls m hm := by
    rcases Nat.lt_or_gt_of_ne hm with hlt | hgt
    · exact List.getElem?_append_left hlt
    · rw [List.getElem?_eq_none (by simp [begin]; omega), List.getElem?_eq_none (Nat.le_of_lt hgt)]
  acts _ hm := Function.update_of_ne hm ..

theorem onlyAt_put (w : SharedWorld) (n : Nat) (k : Option CheckoutCall) (c : Checkouts) :
    OnlyAt n w (w.put n k c) where
  now := rfl
  calls _ hm := List.getElem?_set_ne hm.symm
  acts _ hm := Function.update_of_ne hm ..

theorem onlyAt_act (w : SharedWorld) (n : Nat) (a : CommandAct) (c : Checkouts) :
    OnlyAt n w (w.act n a c) where
  now := rfl
  calls _ _ := rfl
  acts _ hm := Function.update_of_ne hm ..

/-- The calls on a repository are a part of all calls. The call with number `i` is there the one with number
`calls[i]`. -/
structure Part (E : o.Estate) (hkey : E.used key) (calls own : List Nat) (w w' : SharedWorld) : Prop where
  now : w'.now = w.now
  checkouts : w.checkouts.Part E hkey own w'.checkouts
  length : w'.calls.length = calls.length
  nodup : calls.Nodup
  same : ∀ i n : Nat, calls[i]? = some n →
    ∃ a b, w.calls[n]? = some a ∧ w'.calls[i]? = some b ∧ Same o key own a b
  acts : ∀ i n : Nat, calls[i]? = some n → w'.acts i = w.acts n
  beside : ∀ n k, w.Active n k → n ∉ calls → E.used k.key ∧ k.key ≠ key ∧
    k.path = k.key.checkoutPath o.root ∧ k.Beside own w.checkouts.locks
  ready : ∀ i k', w'.Active i k' → k'.needsFolder = true →
    w'.checkouts.fs.isDirAt (E.plot key).folder = true

theorem part_start (h : E.Sound fs) (hkey : E.used key) :
    Part E hkey [] [] (start fs) (start fs) where
  now := rfl
  checkouts := ⟨.refl h hkey, PathLocks.part_none _, rfl⟩
  length := rfl
  nodup := List.nodup_nil
  same _ _ hi := by simp at hi
  acts _ _ hi := by simp at hi
  beside _ _ hn _ := by simp [start, CheckoutWorld.start, CheckoutWorld.Active] at hn
  ready _ _ hi _ := by simp [start, CheckoutWorld.start, CheckoutWorld.Active] at hi

namespace Part

variable (h : Part E hkey calls own w w')
include h

theorem lt_length (hn : n ∈ calls) : n < w.calls.length := by
  obtain ⟨i, hi⟩ := List.mem_iff_getElem?.mp hn
  obtain ⟨a, b, ha, -⟩ := h.same i n hi
  exact (List.getElem?_eq_some_iff.mp ha).1

/-- A call on the repository is there under its number in the part. -/
theorem active (hi : calls[i]? = some n) (hn : w.Active n k) : ∃ k', w'.Active i k' ∧ k.Matches own k' ∧
    k.key = key ∧ k.path = key.checkoutPath o.root := by
  obtain ⟨a, b, ha, hb, hsame⟩ := h.same i n hi
  obtain rfl := Option.some.inj (ha.symm.trans hn)
  cases hsame with
  | active hk hkk hpath => exact ⟨_, hb, hk, hkk, hpath⟩

/-- What happens to another call leaves the part alone. -/
theorem leave (hn : n ∉ calls) (hat : OnlyAt n w w₁) (hc : w₁.checkouts.Part E hkey own w'.checkouts)
    (hlength : w.checkouts.locks.slots.length ≤ w₁.checkouts.locks.slots.length)
    (hk : ∀ k, w₁.Active n k → E.used k.key ∧ k.key ≠ key ∧ k.path = k.key.checkoutPath o.root ∧
      k.Beside own w₁.checkouts.locks) :
    Part E hkey calls own w₁ w' where
  now := h.now.trans hat.now.symm
  checkouts := hc
  length := h.length
  nodup := h.nodup
  same i m hi := by
    rw [hat.calls m fun heq ↦ hn (heq ▸ List.mem_of_getElem? hi)]
    exact h.same i m hi
  acts i m hi := by
    rw [hat.acts m fun heq ↦ hn (heq ▸ List.mem_of_getElem? hi)]
    exact h.acts i m hi
  beside m k hm hout := by
    by_cases heq : m = n
    · exact hk k (heq ▸ hm)
    · obtain ⟨hused, hne, hpath, hbeside⟩ := h.beside m k ((hat.calls m heq).symm.trans hm) hout
      exact ⟨hused, hne, hpath, hbeside.mono (fun _ _ hs ↦ hs) hlength⟩
  ready := h.ready

/-- What another call comes to leaves the part alone. -/
theorem leave_put (hn : w.Active n k) (hout : n ∉ calls) {a : Option CheckoutCall}
    (hc : c.Part E hkey own w'.checkouts)
    (hlength : w.checkouts.locks.slots.length ≤ c.locks.slots.length)
    (hk : ∀ k', a = some k' → E.used k'.key ∧ k'.key ≠ key ∧ k'.path = k'.key.checkoutPath o.root ∧
      k'.Beside own c.locks) :
    Part E hkey calls own (w.put n a c) w' :=
  h.leave hout (onlyAt_put ..) hc hlength fun k' hk' ↦ hk k' <| Option.some.inj <|
    (List.getElem?_set_self (List.getElem?_eq_some_iff.mp hn).1).symm.trans hk'

/-- What the command does that is run for another call leaves the part alone. -/
theorem leave_act (hout : n ∉ calls) (a : CommandAct)
    (hc : c.Part E hkey own w'.checkouts) (hlocks : c.locks = w.checkouts.locks) :
    Part E hkey calls own (w.act n a c) w' := by
  refine h.leave hout (onlyAt_act ..) hc (Nat.le_of_eq (congrArg (·.slots.length) hlocks.symm)) ?_
  intro k' hk'
  obtain ⟨hused, hne, hpath, hbeside⟩ := h.beside n k' hk' hout
  exact ⟨hused, hne, hpath, hlocks ▸ hbeside⟩

/-- What happens to a call on the repository happens in the part. -/
theorem follow {calls' : List Nat} (hi : calls'[i]? = some n) (hnodup : calls'.Nodup)
    (hcalls : ∀ j m : Nat, j ≠ i → calls'[j]? = some m → calls[j]? = some m)
    (hmem : ∀ m, m ∉ calls' → m ∉ calls) (hlength : w₁'.calls.length = calls'.length)
    (hat : OnlyAt n w w₁) (hat' : OnlyAt i w' w₁')
    (hfollows : w.checkouts.Follows E hkey own w'.checkouts own' w₁.checkouts w₁'.checkouts)
    (hsame : ∃ a b, w₁.calls[n]? = some a ∧ w₁'.calls[i]? = some b ∧ Same o key own' a b)
    (hacts : w₁'.acts i = w₁.acts n)
    (hready : ∀ k', w₁'.Active i k' → k'.needsFolder = true →
      w₁'.checkouts.fs.isDirAt (E.plot key).folder = true) :
    Part E hkey calls' own' w₁ w₁' where
  now := hat'.now.trans (h.now.trans hat.now.symm)
  checkouts := hfollows.part
  length := hlength
  nodup := hnodup
  same j m hj := by
    by_cases hji : j = i
    · subst hji
      obtain rfl := Option.some.inj (hi.symm.trans hj)
      exact hsame
    · have hmn : m ≠ n := by
        rintro rfl
        exact hji ((List.getElem?_inj (List.getElem?_eq_some_iff.mp hj).1 hnodup).mp (hj.trans hi.symm))
      obtain ⟨a, b, ha, hb, hab⟩ := h.same j m (hcalls j m hji hj)
      exact ⟨a, b, (hat.calls m hmn).trans ha, (hat'.calls j hji).trans hb, hab.mono hfollows.more⟩
  acts j m hj := by
    by_cases hji : j = i
    · subst hji
      obtain rfl := Option.some.inj (hi.symm.trans hj)
      exact hacts
    · have hmn : m ≠ n := by
        rintro rfl
        exact hji ((List.getElem?_inj (List.getElem?_eq_some_iff.mp hj).1 hnodup).mp (hj.trans hi.symm))
      rw [hat'.acts j hji, hat.acts m hmn]
      exact h.acts j m (hcalls j m hji hj)
  beside m k hm hout := by
    have hmn : m ≠ n := by
      rintro rfl
      exact hout (List.mem_of_getElem? hi)
    obtain ⟨hused, hne, hpath, hbeside⟩ := h.beside m k ((hat.calls m hmn).symm.trans hm) (hmem m hout)
    exact ⟨hused, hne, hpath, hbeside.mono hfollows.others hfollows.length⟩
  ready j k' hj hneeds := by
    by_cases hji : j = i
    · exact hready k' (hji ▸ hj) hneeds
    · exact hfollows.folder (h.ready j k' ((hat'.calls j hji).symm.trans hj) hneeds)

/-- What happens to a call on the repository that has begun happens in the part. -/
theorem follow_put (hi : calls[i]? = some n) (hn : w.Active n k) {a b : Option CheckoutCall}
    (hfollows : w.checkouts.Follows E hkey own w'.checkouts own' c c') (hsame : Same o key own' a b)
    (hready : ∀ k', b = some k' → k'.needsFolder = true → c'.fs.isDirAt (E.plot key).folder = true) :
    Part E hkey calls own' (w.put n a c) (w'.put i b c') := by
  obtain ⟨k', hk', -⟩ := h.active hi hn
  have hleft : (w.put n a c).calls[n]? = some a :=
    List.getElem?_set_self (List.getElem?_eq_some_iff.mp hn).1
  have hright : (w'.put i b c').calls[i]? = some b :=
    List.getElem?_set_self (List.getElem?_eq_some_iff.mp hk').1
  refine h.follow hi h.nodup (fun _ _ _ hj ↦ hj) (fun _ hm ↦ hm) ?_ (onlyAt_put ..) (onlyAt_put ..) hfollows
    ⟨a, b, hleft, hright, hsame⟩ ?_ fun k' hk' ↦ hready k' (Option.some.inj (hright.symm.trans hk'))
  · simp [put, CheckoutWorld.put, h.length]
  · simp [put]

/-- What the command does that is run for a call on the repository is done in the part. -/
theorem follow_act (hi : calls[i]? = some n) (a : CommandAct)
    (hfollows : w.checkouts.Follows E hkey own w'.checkouts own c c') :
    Part E hkey calls own (w.act n a c) (w'.act i a c') := by
  refine h.follow hi h.nodup (fun _ _ _ hj ↦ hj) (fun _ hm ↦ hm) h.length (onlyAt_act ..) (onlyAt_act ..)
    hfollows (h.same i n hi) ?_ fun k' hk' hneeds ↦ hfollows.folder (h.ready i k' hk' hneeds)
  simp [act, h.acts i n hi]

/-- What a command may do, it may do in the part. -/
theorem allows {a : CommandAct} (hi : calls[i]? = some n) (hk : k.Matches own k') (hkk : k.key = key)
    (hallows : w.Allows E R n k a) : w'.Allows (E.only key hkey) R i k' a := by
  obtain ⟨command, wanted, hwants, hR⟩ := hallows
  obtain rfl : wanted = key := (CheckoutCall.key_of_wants hwants).trans hkk
  refine ⟨command, wanted, hk.same.2.2.trans hwants, ?_⟩
  have hcontents : (E.plot wanted).contents w.checkouts.fs = (E.plot wanted).contents w'.checkouts.fs :=
    h.checkouts.files.contents
  rw [h.acts i n hi]
  exact hcontents ▸ hR

end Part

/-! ### Steps -/

/-- An event that is about a repository happens in the part as well, and others do not. -/
inductive Echoes (E : o.Estate) (hkey : E.used key) (R : Runner) (calls : List Nat) (e : SharedEvent)
    (w' : SharedWorld) : SharedWorld → Prop
  | heard {w₁' : SharedWorld} (hconcerns : e.concerns key calls = true)
      (hstep : Step (E.only key hkey) R w' (e.renumber calls.idxOf) w₁') : Echoes E hkey R calls e w' w₁'
  | unheard (hconcerns : e.concerns key calls = false) : Echoes E hkey R calls e w' w'

theorem idxOf_eq (h : calls.Nodup) (hi : calls[i]? = some n) : calls.idxOf n = i := by
  obtain ⟨hlt, rfl⟩ := List.getElem?_eq_some_iff.mp hi
  exact h.idxOf_getElem i hlt

theorem keyAt?_of_begin {order : CheckoutOrder} {c c₁ : Checkouts} (h : order.begin o c = (.inl k, c₁)) :
    RepositoryAddress.keyAt? order.url = some k.key := by
  obtain ⟨address, hparse, hk⟩ := CheckoutCall.parse_of_begin h
  rw [RepositoryAddress.keyAt?, hparse, hk]
  rfl

namespace Part

variable (h : Part E hkey calls own w w')
include h

theorem begin {order : CheckoutOrder} (hbegin : order.begin o w.checkouts = (.inl k, c)) (hused : E.used k.key) :
    ∃ own' w₁', Part E hkey (calls ++ ((SharedEvent.began w.calls.length order).begins? key).toList) own'
      (w.begin k c) w₁' ∧ Echoes E hkey R
        (calls ++ ((SharedEvent.began w.calls.length order).begins? key).toList)
        (.began w.calls.length order) w' w₁' := by
  have hnew : w.calls.length ∉ calls := fun hmem ↦ Nat.lt_irrefl _ (h.lt_length hmem)
  have hlast : (w.begin k c).calls[w.calls.length]? = some (some k) := List.getElem?_concat_length
  have hbegins := CheckoutCall.begins_of_begin hbegin
  by_cases hkk : k.key = key
  · obtain ⟨own', k', c', hbegin', hk, hfollows, hneeds⟩ :=
      CheckoutCall.matches_begin h.checkouts hbegin hkk
    have hlast' : (w'.begin k' c').calls[calls.length]? = some (some k') := by
      rw [← h.length]
      exact List.getElem?_concat_length
    have hi : (calls ++ [w.calls.length])[calls.length]? = some w.calls.length := List.getElem?_concat_length
    have hnodup : (calls ++ [w.calls.length]).Nodup :=
      List.Nodup.append h.nodup (List.nodup_singleton _) (by simpa using hnew)
    rw [SharedEvent.begins?, if_pos (hkk ▸ keyAt?_of_begin hbegin), Option.toList_some]
    refine ⟨own', w'.begin k' c', h.follow hi hnodup ?_ ?_ ?_ (onlyAt_begin ..) (h.length ▸ onlyAt_begin ..)
      hfollows ⟨_, _, hlast, hlast', .active hk hkk (hkk ▸ hbegins.path_eq)⟩ ?_ ?_, ?_⟩
    · intro j m hj hm
      exact (getElem?_concat_eq_some.mp hm).resolve_right fun hlast ↦ hj hlast.1
    · exact fun m hm hmem ↦ hm (List.mem_append_left _ hmem)
    · simp [SharedWorld.begin, h.length]
    · simp [SharedWorld.begin, h.length]
    · intro k₁ hk₁ hneeds'
      obtain rfl : k' = k₁ := Option.some.inj (Option.some.inj (hlast'.symm.trans hk₁))
      rw [hneeds] at hneeds'
      cases hneeds'
    · have hconcerns : (SharedEvent.began w.calls.length order).concerns key
          (calls ++ [w.calls.length]) = true := by
        simp [SharedEvent.concerns]
      refine .heard hconcerns ?_
      rw [SharedEvent.renumber, idxOf_eq hnodup hi, ← h.length]
      exact .begin order hbegin' (hk.same.1.trans hkk)
  · have hnone : (SharedEvent.began w.calls.length order).begins? key = none := by
      rw [SharedEvent.begins?, keyAt?_of_begin hbegin, if_neg (by simpa using hkk)]
    have hconcerns : (SharedEvent.began w.calls.length order).concerns key calls = false := by
      simp [SharedEvent.concerns, hnew]
    rw [hnone, Option.toList_none, List.append_nil]
    obtain ⟨hpart, hlength, hbeside⟩ := hbegins.beside h.checkouts (E.differ _ _ hused hkey hkk)
    refine ⟨own, w', h.leave hnew (onlyAt_begin ..) hpart hlength fun k₁ hk₁ ↦ ?_, ?_⟩
    · obtain rfl : k = k₁ := Option.some.inj (Option.some.inj (hlast.symm.trans hk₁))
      exact ⟨hused, hkk, hbegins.path_eq, hbeside⟩
    · exact .unheard hconcerns

theorem turn {k₁ : CheckoutCall} (news : SyncNews) (hn : w.Active n k) (hnews : news.Answers k.wants)
    (hends : ∀ status, news = .ended status → w.Allows E R n k (.ends status))
    (hturn : k.turn o w.now news w.checkouts = .moved k₁ c) :
    ∃ own' w₁', Part E hkey calls own' (w.put n (some k₁) c) w₁' ∧
      Echoes E hkey R calls (.moved n news k₁.wants) w' w₁' := by
  by_cases hmem : n ∈ calls
  · obtain ⟨i, hi⟩ := List.mem_iff_getElem?.mp hmem
    obtain ⟨k', hk', hk, hkk, hpath⟩ := h.active hi hn
    have hmatches := CheckoutCall.matches_turn w.now news h.checkouts hk hkk hpath
      (h.ready i k' hk')
    rw [hturn] at hmatches
    generalize hturn' : k'.turn o w.now news w'.checkouts = turned at hmatches
    cases hmatches with
    | @moved own' _ k₁' _ c' hk₁ hfollows hready =>
      have hmoves := CheckoutCall.moves_of_turn hturn
      refine ⟨own', w'.put i (some k₁') c', h.follow_put hi hn hfollows
        (.active hk₁ (hmoves.same.1.trans hkk) (hmoves.same.2.trans hpath)) fun k₂ hk₂ ↦ ?_, ?_⟩
      · exact Option.some.inj hk₂ ▸ hready
      · refine .heard (by simpa [SharedEvent.concerns] using hmem) ?_
        rw [SharedEvent.renumber, idxOf_eq h.nodup hi, ← hk₁.same.2.2]
        refine .turn news hk' (hk.same.2.2 ▸ hnews) (fun status hstatus ↦ ?_) (h.now ▸ hturn')
        exact h.allows hi hk hkk (hends status hstatus)
  · obtain ⟨hused, hne, hpath, hbeside⟩ := h.beside n k hn hmem
    have hmoves := CheckoutCall.moves_of_turn hturn
    obtain ⟨hpart, hlength, hbeside'⟩ := hmoves.beside h.checkouts hused hne hpath hbeside
    refine ⟨own, w', h.leave_put hn hmem hpart hlength fun k₂ hk₂ ↦ ?_, ?_⟩
    · obtain rfl := Option.some.inj hk₂
      rw [hmoves.same.1, hmoves.same.2]
      exact ⟨hused, hne, hpath, hbeside'⟩
    · exact .unheard (by simpa [SharedEvent.concerns] using hmem)

theorem finish {r : CheckoutReport} (news : SyncNews) (hn : w.Active n k) (hnews : news.Answers k.wants)
    (hends : ∀ status, news = .ended status → w.Allows E R n k (.ends status))
    (hturn : k.turn o w.now news w.checkouts = .finished r c) :
    ∃ w₁', Part E hkey calls own (w.put n none c) w₁' ∧
      Echoes E hkey R calls (.returned n news r) w' w₁' := by
  by_cases hmem : n ∈ calls
  · obtain ⟨i, hi⟩ := List.mem_iff_getElem?.mp hmem
    obtain ⟨k', hk', hk, hkk, hpath⟩ := h.active hi hn
    have hmatches := CheckoutCall.matches_turn w.now news h.checkouts hk hkk hpath
      (h.ready i k' hk')
    rw [hturn] at hmatches
    generalize hturn' : k'.turn o w.now news w'.checkouts = turned at hmatches
    cases hmatches with
    | @finished _ _ c' hfollows =>
      refine ⟨w'.put i none c', h.follow_put hi hn hfollows .gone (by simp), ?_⟩
      refine .heard (by simpa [SharedEvent.concerns] using hmem) ?_
      rw [SharedEvent.renumber, idxOf_eq h.nodup hi]
      refine .finish news hk' (hk.same.2.2 ▸ hnews) (fun status hstatus ↦ ?_) (h.now ▸ hturn')
      exact h.allows hi hk hkk (hends status hstatus)
  · obtain ⟨hused, hne, hpath, hbeside⟩ := h.beside n k hn hmem
    obtain ⟨hpart, hlength⟩ :=
      (CheckoutCall.returns_of_turn hturn).beside h.checkouts hused hne hpath hbeside
    exact ⟨w', h.leave_put hn hmem hpart hlength (by simp),
      .unheard (by simpa [SharedEvent.concerns] using hmem)⟩

theorem drop (hn : w.Active n k) : ∃ w₁', Part E hkey calls own (w.put n none (k.drop w.checkouts)) w₁' ∧
    Echoes E hkey R calls (.dropped n) w' w₁' := by
  by_cases hmem : n ∈ calls
  · obtain ⟨i, hi⟩ := List.mem_iff_getElem?.mp hmem
    obtain ⟨k', hk', hk, -⟩ := h.active hi hn
    refine ⟨w'.put i none (k'.drop w'.checkouts),
      h.follow_put hi hn (CheckoutCall.matches_drop h.checkouts hk) .gone (by simp), ?_⟩
    refine .heard (by simpa [SharedEvent.concerns] using hmem) ?_
    rw [SharedEvent.renumber, idxOf_eq h.nodup hi]
    exact .drop hk'
  · obtain ⟨-, -, -, hbeside⟩ := h.beside n k hn hmem
    obtain ⟨hpart, hlength⟩ := CheckoutCall.beside_drop h.checkouts hbeside
    exact ⟨w', h.leave_put hn hmem hpart hlength (by simp),
      .unheard (by simpa [SharedEvent.concerns] using hmem)⟩

theorem print {command : Command} {wanted : RepositoryKey} (text : String) (hn : w.Active n k)
    (hk : k.wants = .command command wanted) (hallows : w.Allows E R n k (.prints text)) :
    ∃ w₁', Part E hkey calls own
      (w.act n (.prints text) (w.checkouts.onLog wanted fun l ↦ l.append (command.redact text))) w₁' ∧
        Echoes E hkey R calls (.printed n text) w' w₁' := by
  have hwanted := CheckoutCall.key_of_wants hk
  by_cases hmem : n ∈ calls
  · obtain ⟨i, hi⟩ := List.mem_iff_getElem?.mp hmem
    obtain ⟨k', hk', hmatches, hkk, -⟩ := h.active hi hn
    obtain rfl : wanted = key := hwanted.trans hkk
    refine ⟨_, h.follow_act hi (.prints text)
      (h.checkouts.onLog fun l ↦ l.append (command.redact text)).stays.of_onLog, ?_⟩
    refine .heard (by simpa [SharedEvent.concerns] using hmem) ?_
    rw [SharedEvent.renumber, idxOf_eq h.nodup hi]
    exact .print text hk' (hmatches.same.2.2.trans hk) (h.allows hi hmatches hkk hallows)
  · obtain ⟨-, hne, -⟩ := h.beside n k hn hmem
    exact ⟨w', h.leave_act hmem _ (h.checkouts.onLog_beside (hwanted ▸ hne) _) rfl,
      .unheard (by simpa [SharedEvent.concerns] using hmem)⟩

theorem change (hn : w.Active n k) (hworks : (E.plot k.key).Works w.checkouts.fs fs)
    (hallows : w.Allows E R n k (.changes ((E.plot k.key).contents fs))) :
    ∃ w₁', Part E hkey calls own
      (w.act n (.changes ((E.plot k.key).contents fs)) { w.checkouts with fs := fs }) w₁' ∧
        Echoes E hkey R calls (.changed n ((E.plot k.key).contents fs)) w' w₁' := by
  by_cases hmem : n ∈ calls
  · obtain ⟨i, hi⟩ := List.mem_iff_getElem?.mp hmem
    obtain ⟨k', hk', hmatches, hkk, -⟩ := h.active hi hn
    subst hkk
    have hneeds : k'.needsFolder = true := by
      obtain ⟨command, wanted, hwants, -⟩ := hallows
      exact CheckoutCall.needsFolder_of_wants (hmatches.same.2.2.trans hwants)
    obtain ⟨fs', hworks', hfolder, htwins⟩ := h.checkouts.files.change hworks (h.ready i k' hk' hneeds)
    have hcontents : (E.plot k.key).contents fs = (E.plot k.key).contents fs' := htwins.contents
    refine ⟨_, h.follow_act hi (.changes ((E.plot k.key).contents fs))
      ⟨h.checkouts.withFiles htwins, List.prefix_refl _, fun _ _ hm ↦ hm, Nat.le_refl _, fun _ ↦ hfolder⟩, ?_⟩
    refine .heard (by simpa [SharedEvent.concerns] using hmem) ?_
    rw [SharedEvent.renumber, idxOf_eq h.nodup hi, hcontents]
    exact .change_of_key hk' hmatches.same.1 hworks' (hcontents ▸ h.allows hi hmatches rfl hallows)
  · obtain ⟨hused, hne, -⟩ := h.beside n k hn hmem
    exact ⟨w', h.leave_act hmem _ (h.checkouts.withFiles_beside hused hne hworks) rfl,
      .unheard (by simpa [SharedEvent.concerns] using hmem)⟩

/-- What is known of the checkout of a repository is known in the part. -/
theorem inspect_eq {url : String} (hurl : RepositoryAddress.keyAt? url = some key) :
    inspect o url w'.checkouts = inspect o url w.checkouts := by
  obtain ⟨address, hparse, hk⟩ := Option.map_eq_some_iff.mp hurl
  delta inspect SyncOptions.locate
  cases hurl : RepositoryAddress.parse url with
  | error e => rfl
  | ok a =>
    rw [hurl] at hparse
    obtain rfl := Option.some.inj hparse
    simp only [hk, h.checkouts.info_eq]

/-- Whatever is seen of a log is seen in the part. -/
theorem look_eq {watch : ProgressWatch} (hwatch : watch.key = key) {log : ProgressSnapshot}
    {board : ProgressBoard} (hshown : watch.turn w.now w.checkouts.board = .finished log board) :
    ∃ board', watch.turn w'.now w'.checkouts.board = .finished log board' := by
  simp only [ProgressWatch.turn, hwatch, h.now, h.checkouts.log] at hshown ⊢
  split at hshown
  · rename_i hnews
    obtain ⟨rfl, -⟩ := Turn.finished.inj hshown
    exact ⟨_, if_pos hnews⟩
  · cases hshown

theorem watch_eq (limit : Nat) : ProgressWatch.start w'.checkouts.board key w'.now limit =
    ProgressWatch.start w.checkouts.board key w.now limit := by
  rw [ProgressWatch.start, ProgressWatch.start, h.checkouts.log, h.now]

theorem pass (time : Nat) :
    Part E hkey calls own { w with now := w.now + time } { w' with now := w'.now + time } where
  now := congrArg (· + time) h.now
  checkouts := h.checkouts
  length := h.length
  nodup := h.nodup
  same := h.same
  acts := h.acts
  beside := h.beside
  ready := h.ready

/-- What is found out about any checkout is found out in the part, if it is the one there. -/
theorem echoes_inspect (url : String) :
    Echoes E hkey R calls (.inspected url (SharedWorld.inspect o url w.checkouts)) w' w' := by
  by_cases hurl : RepositoryAddress.keyAt? url = some key
  · refine .heard (by simpa [SharedEvent.concerns] using hurl) ?_
    rw [← h.inspect_eq hurl]
    exact .inspect url
  · exact .unheard (by simpa [SharedEvent.concerns] using hurl)

theorem echoes_watch (wanted : RepositoryKey) (limit : Nat) : Echoes E hkey R calls
    (.watched wanted limit (ProgressWatch.start w.checkouts.board wanted w.now limit)) w' w' := by
  by_cases hwanted : wanted = key
  · refine Echoes.heard (by simpa [SharedEvent.concerns] using hwanted) ?_
    rw [hwanted, ← h.watch_eq limit]
    exact .watch key limit
  · exact Echoes.unheard (by simpa [SharedEvent.concerns] using hwanted)

theorem echoes_look {watch : ProgressWatch} {log : ProgressSnapshot} {board : ProgressBoard}
    (hshown : watch.turn w.now w.checkouts.board = .finished log board) :
    Echoes E hkey R calls (.shown watch log) w' w' := by
  by_cases hwanted : watch.key = key
  · obtain ⟨board', hshown'⟩ := h.look_eq hwanted hshown
    exact Echoes.heard (by simpa [SharedEvent.concerns] using hwanted) (.look hshown')
  · exact Echoes.unheard (by simpa [SharedEvent.concerns] using hwanted)

/-- Every step comes to the same in the part, or leaves it alone. -/
theorem step (hstep : Step E R w e w₁) : ∃ own' w₁',
    Part E hkey (calls ++ (e.begins? key).toList) own' w₁ w₁' ∧
      Echoes E hkey R (calls ++ (e.begins? key).toList) e w' w₁' := by
  have hsame {e : SharedEvent} {w₁ : SharedWorld} (hnone : e.begins? key = none)
      (hpart : ∃ own' w₁', Part E hkey calls own' w₁ w₁' ∧ Echoes E hkey R calls e w' w₁') :
      ∃ own' w₁', Part E hkey (calls ++ (e.begins? key).toList) own' w₁ w₁' ∧
        Echoes E hkey R (calls ++ (e.begins? key).toList) e w' w₁' := by
    rwa [hnone, Option.toList_none, List.append_nil]
  cases hstep with
  | begin order hbegin hused => exact h.begin hbegin hused
  | refuse order hbegin =>
    obtain rfl := CheckoutCall.checkouts_eq_of_refused hbegin
    exact hsame rfl ⟨own, w', h, Echoes.unheard rfl⟩
  | turn news hn hnews hends hturn => exact hsame rfl (h.turn news hn hnews hends hturn)
  | finish news hn hnews hends hturn => exact hsame rfl ⟨own, h.finish news hn hnews hends hturn⟩
  | drop hn => exact hsame rfl ⟨own, h.drop hn⟩
  | print text hn hk hallows => exact hsame rfl ⟨own, h.print text hn hk hallows⟩
  | change hn hworks hallows => exact hsame rfl ⟨own, h.change hn hworks hallows⟩
  | inspect url => exact hsame rfl ⟨own, w', h, h.echoes_inspect url⟩
  | watch wanted limit => exact hsame rfl ⟨own, w', h, h.echoes_watch wanted limit⟩
  | look hshown => exact hsame rfl ⟨own, w', h, h.echoes_look hshown⟩
  | pass time => exact hsame rfl ⟨own, _, h.pass time, Echoes.heard rfl (.pass time)⟩

end Part

/-- What is seen of one repository in a run is seen in a run of its own calls. -/
theorem part_of_run (hfs : E.Sound fs) (hkey : E.used key) (h : Run (Step E R) (start fs) t w) :
    ∃ own w', Part E hkey (View.of key t).calls own w w' ∧
      Run (Step (E.only key hkey) R) (start fs) (View.of key t).events w' := by
  induction h with
  | nil => exact ⟨[], _, part_start hfs hkey, .nil⟩
  | @snoc t e u v h hstep ih =>
    obtain ⟨own, w', hpart, hrun⟩ := ih
    obtain ⟨own', w₁', hpart', hechoes⟩ := hpart.step hstep
    rw [View.of_concat, View.add]
    refine ⟨own', w₁', hpart', ?_⟩
    cases hechoes with
    | heard hconcerns hstep =>
      rw [if_pos hconcerns]
      exact hrun.snoc hstep
    | unheard hconcerns =>
      rw [if_neg (Bool.eq_false_iff.mp hconcerns)]
      exact hrun

/-! ### What calls have to do with each other -/

/-- A call that is given some news has to wait, perhaps until some time. -/
def Parks (o : SyncOptions) (w : SharedWorld) (n : Nat) (news : SyncNews) (until? : Option Nat) : Prop :=
  ∃ k, w.Active n k ∧ k.turn o w.now news w.checkouts = .parked until?

namespace Part

variable (h : Part E hkey calls own w w')
include h

/-- A call has to wait if it has to in the part. -/
theorem parks_iff {news : SyncNews} {until? : Option Nat} (hi : calls[i]? = some n) :
    Parks o w n news until? ↔ Parks o w' i news until? := by
  obtain ⟨a, b, ha, hb, hsame⟩ := h.same i n hi
  cases hsame with
  | gone =>
    constructor
    · rintro ⟨k, hn, -⟩
      cases Option.some.inj (ha.symm.trans hn)
    · rintro ⟨k', hk', -⟩
      cases Option.some.inj (hb.symm.trans hk')
  | @active k k' hk hkk hpath =>
    have hmatches := CheckoutCall.matches_turn w.now news h.checkouts hk hkk hpath
      (h.ready i k' hb)
    constructor
    · rintro ⟨k₁, hn, hturn⟩
      obtain rfl := Option.some.inj (Option.some.inj (ha.symm.trans hn))
      rw [hturn] at hmatches
      generalize hturn' : k'.turn o w.now news w'.checkouts = turned at hmatches
      cases hmatches with
      | parked => exact ⟨k', hb, h.now ▸ hturn'⟩
    · rintro ⟨k₁, hn, hturn'⟩
      obtain rfl := Option.some.inj (Option.some.inj (hb.symm.trans hn))
      rw [← h.now, hturn'] at hmatches
      generalize hturn : k.turn o w'.now news w.checkouts = turned at hmatches
      cases hmatches with
      | parked => exact ⟨k, ha, h.now ▸ hturn⟩

/-- The calls on a repository are the ones in the part. -/
theorem mem_calls (hn : w.Active n k) (hk : k.key = key) : n ∈ calls := by
  by_contra hmem
  exact (h.beside n k hn hmem).2.1 hk

/-- Calls in one slot are on the same repository. -/
theorem key_eq_of_slot {m : Nat} {k₁ : CheckoutCall} {a b : LockSeat} (hn : w.Active n k) (hm : w.Active m k₁)
    (hk : k.key = key) (ha : k.seat? = some a) (hb : k₁.seat? = some b) (hslot : a.slot = b.slot) :
    k₁.key = key := by
  obtain ⟨i, hi⟩ := List.mem_iff_getElem?.mp (h.mem_calls hn hk)
  obtain ⟨k', -, hmatches, -⟩ := h.active hi hn
  by_cases hmem : m ∈ calls
  · obtain ⟨j, hj⟩ := List.mem_iff_getElem?.mp hmem
    obtain ⟨k', -, -, hkk, -⟩ := h.active hj hm
    exact hkk
  · obtain ⟨-, -, -, hbeside⟩ := h.beside m k₁ hm hmem
    exact absurd (hslot ▸ hmatches.slot_mem ha) (hbeside b hb).1

/-- An outcome that a call on the repository is about to share is kept in the part. -/
theorem kept {task : SyncTask} {place : PathLocks.Place} {x : SyncResult}
    (hover : w.toCheckoutWorld.Overtaken n task place x) (hk : task.address.key = key) :
    ∃ i s, w'.checkouts.locks.slot? i = some s ∧ s.last = some x := by
  obtain ⟨hn, s, hs, hlast, -⟩ := hover
  obtain ⟨i, hi⟩ := List.mem_iff_getElem?.mp (h.mem_calls hn hk)
  obtain ⟨k', -, hmatches, -⟩ := h.active hi hn
  obtain ⟨j, hj⟩ := List.mem_iff_getElem?.mp (hmatches.slot_mem rfl)
  exact ⟨j, s, (h.checkouts.locks.slot?_eq hj).trans hs, hlast⟩

end Part

/-- An outcome that is kept in a slot was returned by a synchronization. -/
theorem returned_of_kept {n : Nat} {s : Slot SyncResult} {x : SyncResult}
    (h : Run (Step E R) (start fs) t w) (hs : w.checkouts.locks.slot? n = some s) (hlast : s.last = some x) :
    ∃ m news, .returned m news (.synchronized x) ∈ t := by
  induction h generalizing n s with
  | nil => cases hs
  | @snoc t e u v h hstep ih =>
    -- If outcomes stay as they are, the outcome was kept before.
    have hstays (houtcomes : u.checkouts.locks.SameOutcomes v.checkouts.locks) :
        ∃ m news, .returned m news (.synchronized x) ∈ t ++ [e] := by
      rcases houtcomes n s hs with ⟨s₀, hs₀, hlast₀, -⟩ | hnone
      · obtain ⟨m, news, hmem⟩ := ih hs₀ (hlast₀ ▸ hlast)
        exact ⟨m, news, List.mem_append_left _ hmem⟩
      · cases hlast.symm.trans hnone
    cases hstep with
    | begin order hbegin => exact hstays (CheckoutCall.begins_of_begin hbegin).sameOutcomes
    | refuse order hbegin =>
      obtain rfl := CheckoutCall.checkouts_eq_of_refused hbegin
      exact hstays u.checkouts.locks.sameOutcomes_refl
    | turn news hn hnews hends hturn => exact hstays (CheckoutCall.moves_of_turn hturn).sameOutcomes
    | @finish m k r c news hn hnews hends hturn =>
      rcases (CheckoutCall.returns_of_turn hturn).sameOutcomes_or_concludes with
        houtcomes | ⟨task, phase, place, y, -, rfl, -, hlocks⟩
      · exact hstays houtcomes
      · have hs : c.locks.slot? n = some s := hs
        rw [hlocks] at hs
        rcases PathLocks.finish_eq_some hs with ⟨-, hlast'⟩ | ⟨-, s₀, hs₀, hlast₀, -⟩
        · obtain rfl := Option.some.inj (hlast.symm.trans hlast')
          exact ⟨m, news, by simp⟩
        · obtain ⟨m', news', hmem⟩ := ih hs₀ (hlast₀ ▸ hlast)
          exact ⟨m', news', List.mem_append_left _ hmem⟩
    | @drop m k hn => exact hstays (k.sameOutcomes_drop u.checkouts)
    | print text hn hk hallows => exact hstays u.checkouts.locks.sameOutcomes_refl
    | change hn hworks hallows => exact hstays u.checkouts.locks.sameOutcomes_refl
    | inspect url => exact hstays u.checkouts.locks.sameOutcomes_refl
    | watch wanted limit => exact hstays u.checkouts.locks.sameOutcomes_refl
    | look hshown => exact hstays u.checkouts.locks.sameOutcomes_refl
    | pass time => exact hstays u.checkouts.locks.sameOutcomes_refl

/-- What is seen of a repository is what is seen when there is only work on it. -/
structure Isolated (R : Runner) (hkey : E.used key) (fs : FileSystem) (t : List SharedEvent)
    (w w' : SharedWorld) : Prop where
  /-- The same results, commands and invalidations come of the calls on the repository alone, the same is
  known of its checkout, and the same is read in its log. -/
  run : Run (Step (E.only key hkey) R) (start fs) (View.of key t).events w'
  now : w'.now = w.now
  log : w'.checkouts.board.log key = w.checkouts.board.log key
  contents : (E.plot key).contents w'.checkouts.fs = (E.plot key).contents w.checkouts.fs
  /-- Calls wait when they do so with calls on their repository alone. -/
  waits : ∀ i n : Nat, (View.of key t).calls[i]? = some n →
    ∀ news until?, Parks o w n news until? ↔ Parks o w' i news until?
  /-- Calls wait in a slot only with calls on their repository. -/
  slots : ∀ m n k k' a b, w.Active m k → w.Active n k' → k.key = key → k.seat? = some a →
    k'.seat? = some b → a.slot = b.slot → k'.key = key
  /-- Calls share outcomes of calls on their repository. -/
  shares : ∀ n task place x, w.toCheckoutWorld.Overtaken n task place x → task.address.key = key →
    ∃ m news, .returned m news (.synchronized x) ∈ (View.of key t).events

/-- Whatever happens to checkouts beside each other, what is seen of one repository is what is seen of a run
in which there are only its own calls. None of them waits for a call on another repository, nor shares its
outcome. -/
theorem isolated_of_run (hfs : E.Sound fs) (hkey : E.used key) (h : Run (Step E R) (start fs) t w) :
    ∃ w', Isolated R hkey fs t w w' := by
  obtain ⟨own, w', hpart, hrun⟩ := part_of_run hfs hkey h
  refine ⟨w', hrun, hpart.now, hpart.checkouts.log, hpart.checkouts.files.contents.symm, ?_, ?_, ?_⟩
  · exact fun i n hi news until? ↦ hpart.parks_iff hi
  · intro m n k k' a b hm hn hk ha hb hslot
    exact hpart.key_eq_of_slot hm hn hk ha hb hslot
  · intro n task place x hover hk
    obtain ⟨i, s, hs, hlast⟩ := hpart.kept hover hk
    exact returned_of_kept hrun hs hlast

/-- The place of a checkout below the folder `/c/github.com/o`. -/
def plotOf (name : List Char) (h : Path.IsName name) : FileSystem.Plot where
  front := []
  base := []
  above := ["c".toList, "github.com".toList, "o".toList]
  last := name
  isName_above n hn := by
    simp only [List.mem_cons, List.not_mem_nil, or_false] at hn
    rcases hn with rfl | rfl | rfl <;> exact ⟨by decide, by decide, by decide, by decide⟩
  isName_last := h

theorem isName_r : Path.IsName ['r'] := ⟨by decide, by decide, by decide, by decide⟩

theorem isName_s : Path.IsName ['s'] := ⟨by decide, by decide, by decide, by decide⟩

/-- The places of two checkouts. -/
def plotFor (key : RepositoryKey) : FileSystem.Plot :=
  if key = ⟨"github.com", "o/r"⟩ then plotOf ['r'] isName_r else plotOf ['s'] isName_s

/-- The repositories at `https://github.com/o/r` and `https://github.com/o/s`. -/
def IsNeighbour (key : RepositoryKey) : Prop := key = ⟨"github.com", "o/r"⟩ ∨ key = ⟨"github.com", "o/s"⟩

theorem path_plotFor (key : RepositoryKey) (h : IsNeighbour key) :
    (plotFor key).path = key.checkoutPath SyncOptions.plain.root := by
  rcases h with rfl | rfl <;> decide +kernel

theorem apart_plotFor (a b : RepositoryKey) (ha : IsNeighbour a) (hb : IsNeighbour b) (hne : a ≠ b) :
    (plotFor a).place.isPrefixOf (plotFor b).place = false ∧
      (a.checkoutPath SyncOptions.plain.root).same (b.checkoutPath SyncOptions.plain.root) = false := by
  rcases ha with rfl | rfl <;> rcases hb with rfl | rfl
  · exact absurd rfl hne
  · exact ⟨by decide +kernel, by decide +kernel⟩
  · exact ⟨by decide +kernel, by decide +kernel⟩
  · exact absurd rfl hne

theorem leads_plotFor (key : RepositoryKey) :
    FileSystem.empty.Leads (FileSystem.stepsOf (plotFor key).front) (plotFor key).base := by
  rw [plotFor]
  split <;> exact ⟨2, _, rfl⟩

theorem clear_plotFor (key : RepositoryKey) (q : FileSystem.Place) (hq : (plotFor key).place <+: q) :
    FileSystem.empty.entry? q = none := by
  rw [ FileSystem.entry?, if_neg]
  · rfl
  · rintro rfl
    exact FileSystem.Plot.place_ne_nil _ (List.prefix_nil.mp hq)

/-- Two repositories whose checkouts are beside each other. -/
def neighbours : SyncOptions.plain.Estate where
  ground := .empty
  used := IsNeighbour
  plot := plotFor
  leads key _ := leads_plotFor key
  clear key _ := clear_plotFor key
  apart a b ha hb hne h :=
    Bool.false_ne_true ((apart_plotFor a b ha hb hne).1.symm.trans (List.isPrefixOf_iff_prefix.mpr h))
  path := path_plotFor
  differ a b ha hb hne := (apart_plotFor a b ha hb hne).2

/-- A removal begins when its address is one of a repository. -/
theorem begin_remove {url : String} (o : SyncOptions) (c : Checkouts)
    (h : RepositoryAddress.keyAt? url = some key) :
    ∃ k c', (CheckoutOrder.remove url).begin o c = (.inl k, c') ∧ k.key = key := by
  obtain ⟨address, hparse, rfl⟩ := Option.map_eq_some_iff.mp h
  cases hurl : RepositoryAddress.parse url with
  | error e =>
    rw [hurl] at hparse
    cases hparse
  | ok a =>
    rw [hurl] at hparse
    obtain rfl := Option.some.inj hparse
    simp only [CheckoutOrder.begin, Removal.begin, SyncOptions.locate, hurl]
    exact ⟨_, _, rfl, rfl⟩

/-- While the checkout of one repository is removed, the one of another repository is not affected. -/
theorem isolated_neighbours : ∃ t w w', t.length = 2 ∧
    Run (Step neighbours fun _ _ _ _ _ ↦ True) (start .empty) t w ∧
    neighbours.Sound .empty ∧ ∃ hkey : neighbours.used ⟨"github.com", "o/r"⟩,
      Isolated (fun _ _ _ _ _ ↦ True) hkey .empty t w w' := by
  have hsound : neighbours.Sound .empty := by
    refine ⟨⟨fun q time h ↦ ⟨time, h⟩, fun q target h ↦ h⟩, fun key hkey ↦ ⟨neighbours.leads key hkey, ?_, ?_⟩⟩
    · intro l hl target h
      rw [ FileSystem.entry?] at h
      split at h <;> cases h
    · intro l n e hl h
      rw [ FileSystem.entry?, if_neg (by simp)] at h
      cases h
  have hr : RepositoryAddress.keyAt? "https://github.com/o/r" = some ⟨"github.com", "o/r"⟩ := by decide +kernel
  have hs : RepositoryAddress.keyAt? "https://github.com/o/s" = some ⟨"github.com", "o/s"⟩ := by decide +kernel
  obtain ⟨k, c, hk, hkey⟩ := begin_remove .plain (start .empty).checkouts hr
  obtain ⟨k', c', hk', hkey'⟩ := begin_remove .plain c hs
  have hrun : Run (Step neighbours fun _ _ _ _ _ ↦ True) (start .empty) _ _ :=
    (Run.nil.snoc (.begin _ hk (Or.inl hkey))).snoc (.begin _ hk' (Or.inr hkey'))
  obtain ⟨w', hisolated⟩ := isolated_of_run hsound (Or.inl rfl) hrun
  exact ⟨_, _, w', rfl, hrun, hsound, Or.inl rfl, hisolated⟩

end SharedWorld

end CodeNav
