import CodeNav.Proofs.Browser.Updates
import Mathlib.Data.List.Permutation

/-!
# Updates that overlap

Each handler of an update stores the settings that it has loaded, with its own update. So an update is lost
when another handler has loaded the settings before and stores them after it; and since all handlers write
beside the same file, one of them may replace the file with what another one has written, which then has
nothing left to replace it with. What is stored is still what some of the updates make of the first settings,
in the order in which the settings were loaded for them. No update is lost when the settings are only loaded
after all that have loaded them before have replied.

## Main definitions

* `UpdateEvent.Successive`: updates that do not overlap
* `ServiceWorld.Interwoven`: what is known of handlers and of the file

## Main statements

* `ServiceWorld.Interwoven.step`: the steps of handlers of updates keep it
* `ServiceWorld.exists_run_isQuiet`: all handlers can come to their ends
* `ServiceWorld.stored_of_updates`: what is stored, and what is replied
* `ServiceWorld.exists_lost_update`: two updates, of which one is lost
-/

namespace CodeNav

open SettingsFile (Site)

namespace UpdateEvent

/-- The updates that have arrived, with the numbers of their handlers. -/
def numbered (t : List UpdateEvent) : List (Nat × Settings.Update) := (arrivals t).mapIdx fun n a ↦ (n, a.2)

/-- A handler has replied. -/
def Replied (t : List UpdateEvent) (n : Nat) : Prop := ∃ r, (n, r) ∈ replies t

/-- Settings are only loaded after all that have loaded them before have replied. -/
def Successive (t : List UpdateEvent) : Prop :=
  ∀ before e after, t = before ++ e :: after → e.load?.isSome = true → ∀ y ∈ loads before, Replied before y.1

variable {t : List UpdateEvent} {e : UpdateEvent} {n : Nat} {y : Nat × Settings.Update}

theorem Replied.concat (h : Replied t n) : Replied (t ++ [e]) n := by
  obtain ⟨r, hr⟩ := h
  exact ⟨r, by simp [hr]⟩

theorem Successive.of_concat (h : Successive (t ++ [e])) : Successive t :=
  fun before d after ht ↦ h before d (after ++ [e]) (by simp [ht])

theorem Successive.last (h : Successive (t ++ [e])) (he : e.load? = some y) : ∀ y ∈ loads t, Replied t y.1 :=
  h t e [] rfl (by rw [he]; rfl)

theorem successive_iff : Successive t ↔ ∀ n, ∀ h : n < t.length, t[n].load?.isSome = true →
    ∀ y ∈ loads (t.take n), y.1 ∈ (replies (t.take n)).map Prod.fst := by
  have hreplied (t : List UpdateEvent) (n : Nat) : Replied t n ↔ n ∈ (replies t).map Prod.fst := by
    simp [Replied]
  simp only [Successive, hreplied]
  constructor
  · intro h n hn he
    exact h _ _ (t.drop (n + 1)) (by simp) he
  · rintro h before e _ rfl he
    simpa using h before.length (by simp) (by simpa using he)

instance : DecidablePred Successive := fun _ ↦ decidable_of_iff _ successive_iff.symm

end UpdateEvent

open UpdateEvent (arrivals loads replies numbered Replied Successive)

namespace ServiceWorld

variable {v : Service} {x : Site} {f : SettingsFile} {locate : Nat → String → Option String}
  {fs fs' : FileSystem} {s₀ s p : Settings} {t : List UpdateEvent} {e : UpdateEvent} {w w' : ServiceWorld}
  {n m : Nat} {u : Settings.Update} {stage : UpdateStage}

/-- Settings that some of the updates make of the first ones, in the order of their loads. -/
def Made (locate : Nat → String → Option String) (s₀ : Settings) (t : List UpdateEvent) (s : Settings) : Prop :=
  ∃ l, l.Sublist (loads t) ∧ s = s₀.after locate l

theorem Made.concat (h : Made locate s₀ t s) : Made locate s₀ (t ++ [e]) s := by
  obtain ⟨l, hl, rfl⟩ := h
  exact ⟨l, hl.trans (by simp), rfl⟩

/-- Settings that a handler has loaded. They are those after all other updates, and still stored, as long as
updates do not overlap. -/
structure Has (x : Site) (f : SettingsFile) (locate : Nat → String → Option String) (s₀ : Settings)
    (t : List UpdateEvent) (fs : FileSystem) (n : Nat) (u : Settings.Update) (s : Settings) : Prop where
  made : ∃ l, (l ++ [(n, u)]).Sublist (loads t) ∧ s = s₀.after locate l ∧
    (Successive t → l ++ [(n, u)] = loads t)
  alone : Successive t → x.Ready f fs s ∧ ∀ y ∈ loads t, y.1 ≠ n → Replied t y.1

namespace Has

variable (h : Has x f locate s₀ t fs n u s)
include h

theorem mem_loads : (n, u) ∈ loads t := by
  obtain ⟨l, hl, -⟩ := h.made
  exact hl.subset (by simp)

/-- The settings to store. -/
theorem made_apply : Made locate s₀ t (s.apply (u.located (locate n))) := by
  obtain ⟨l, hl, rfl, -⟩ := h.made
  exact ⟨l ++ [(n, u)], hl, by simp⟩

/-- Two handlers that have loaded settings overlap. -/
theorem not_successive {y : Nat × Settings.Update} (hy : y ∈ loads t) (hne : y.1 ≠ n)
    (hreplied : ¬ Replied t y.1) : ¬ Successive t :=
  fun hall ↦ hreplied ((h.alone hall).2 y hy hne)

/-- Nothing is loaded or stored. -/
theorem concat (he : e.load? = none) (hready : x.Ready f fs s → x.Ready f fs' s) :
    Has x f locate s₀ (t ++ [e]) fs' n u s where
  made := by
    obtain ⟨l, hl, hs, hall⟩ := h.made
    exact ⟨l, by simpa [he] using hl, hs, fun ht ↦ by simpa [he] using hall ht.of_concat⟩
  alone ht := by
    obtain ⟨hstored, hothers⟩ := h.alone ht.of_concat
    refine ⟨hready hstored, fun y hy hne ↦ ?_⟩
    exact (hothers y (by simpa [he] using hy) hne).concat

/-- Something happens with which updates overlap. -/
theorem overlap (hnot : ¬ Successive (t ++ [e])) : Has x f locate s₀ (t ++ [e]) fs' n u s where
  made := by
    obtain ⟨l, hl, hs, -⟩ := h.made
    exact ⟨l, hl.trans (by simp), hs, fun ht ↦ absurd ht hnot⟩
  alone ht := absurd ht hnot

end Has

/-- What is known of a handler at a stage. -/
inductive Fits (x : Site) (f : SettingsFile) (locate : Nat → String → Option String) (s₀ : Settings)
    (t : List UpdateEvent) (fs : FileSystem) (n : Nat) (u : Settings.Update) : UpdateStage → Prop
  | begun (h : ∀ y ∈ loads t, y.1 ≠ n) : Fits x f locate s₀ t fs n u .begun
  | loaded {s : Settings} (h : Has x f locate s₀ t fs n u s) : Fits x f locate s₀ t fs n u (.loaded s)
  | placed {s : Settings} (h : Has x f locate s₀ t fs n u s) (hopen : x.Open f fs) :
      Fits x f locate s₀ t fs n u (.placed s)
  /-- What stands beside the file was written by some handler, and by this one if updates do not overlap. -/
  | staged {s : Settings} (h : Has x f locate s₀ t fs n u s) (hopen : x.Open f fs) {p? : Option Settings}
      (hbeside : x.Beside fs p?) (hmade : ∀ p ∈ p?, Made locate s₀ t p)
      (hown : Successive t → p? = some (s.apply (u.located (locate n)))) :
      Fits x f locate s₀ t fs n u (.staged s)

namespace Fits

theorem isOpen (h : Fits x f locate s₀ t fs n u stage) (hlate : stage.IsLate) : x.Open f fs := by
  cases h with
  | begun | loaded => exact hlate.elim
  | placed _ hopen | staged _ hopen => exact hopen

/-- Nothing is loaded or stored. -/
theorem concat (h : Fits x f locate s₀ t fs n u stage) (he : e.load? = none)
    (hready : ∀ s, x.Ready f fs s → x.Ready f fs' s) (hfolder : x.Open f fs → fs' = fs) :
    Fits x f locate s₀ (t ++ [e]) fs' n u stage := by
  cases h with
  | begun h => exact .begun (by simpa [he] using h)
  | loaded h => exact .loaded (h.concat he (hready _))
  | placed h hopen =>
    obtain rfl := hfolder hopen
    exact .placed (h.concat he id) hopen
  | staged h hopen hbeside hmade hown =>
    obtain rfl := hfolder hopen
    exact .staged (h.concat he id) hopen hbeside (fun p hp ↦ (hmade p hp).concat) fun ht ↦ hown ht.of_concat

/-- Another handler loads the settings. -/
theorem load (h : Fits x f locate s₀ t fs n u stage) {y : Nat × Settings.Update} (he : e.load? = some y)
    (hne : y.1 ≠ n) (hreplied : ¬ Replied t n) : Fits x f locate s₀ (t ++ [e]) fs n u stage := by
  have hnot {s : Settings} (h : Has x f locate s₀ t fs n u s) : ¬ Successive (t ++ [e]) :=
    fun ht ↦ hreplied (ht.last he _ h.mem_loads)
  cases h with
  | begun h =>
    refine .begun fun z hz ↦ ?_
    rcases List.mem_append.mp (UpdateEvent.loads_concat e ▸ hz) with hz | hz
    · exact h z hz
    · obtain rfl := List.mem_singleton.mp (by simpa [he] using hz)
      exact hne
  | loaded h => exact .loaded (h.overlap (hnot h))
  | placed h hopen => exact .placed (h.overlap (hnot h)) hopen
  | staged h hopen hbeside hmade hown =>
    exact .staged (h.overlap (hnot h)) hopen hbeside (fun p hp ↦ (hmade p hp).concat)
      fun ht ↦ absurd ht (hnot h)

/-- Another handler that has loaded settings changes what stands at the site. -/
theorem write (h : Fits x f locate s₀ t fs n u stage) {y : Nat × Settings.Update} (he : e.load? = none)
    (hy : y ∈ loads t) (hne : y.1 ≠ n) (hreplied : ¬ Replied t y.1) (hopen : x.Open f fs') {p? : Option Settings}
    (hbeside : x.Beside fs' p?) (hmade : ∀ p ∈ p?, Made locate s₀ t p) :
    Fits x f locate s₀ (t ++ [e]) fs' n u stage := by
  have hnot {s : Settings} (h : Has x f locate s₀ t fs n u s) : ¬ Successive (t ++ [e]) :=
    fun ht ↦ h.not_successive hy hne hreplied ht.of_concat
  cases h with
  | begun h => exact .begun (by simpa [he] using h)
  | loaded h => exact .loaded (h.overlap (hnot h))
  | placed h => exact .placed (h.overlap (hnot h)) hopen
  | staged h =>
    exact .staged (h.overlap (hnot h)) hopen hbeside (fun p hp ↦ (hmade p hp).concat)
      fun ht ↦ absurd ht (hnot h)

end Fits

/-- What is known of handlers of updates and of the file with the settings, when the settings were `s₀`. -/
structure Interwoven (v : Service) (x : Site) (locate : Nat → String → Option String) (s₀ : Settings)
    (t : List UpdateEvent) (w : ServiceWorld) : Prop where
  stored : ∃ l, l.Sublist (loads t) ∧ x.Ready v.settings w.state.fs (s₀.after locate l) ∧
    (Successive t → (∀ y ∈ loads t, Replied t y.1) → l = loads t)
  count : w.handlers.length = (arrivals t).length
  going : ∀ (n : Nat) (h : Handler), w.handlers[n]? = some (some h) → ¬ Replied t n ∧ ∃ u stage,
    (arrivals t)[n]? = some (h.message, u) ∧ h.At (locate n) u stage ∧
      Fits x v.settings locate s₀ t w.state.fs n u stage
  ended : ∀ n : Nat, w.handlers[n]? = some none → Replied t n ∧ ∃ y ∈ loads t, y.1 = n
  distinct : ((loads t).map Prod.fst).Nodup
  loaded : ∀ y ∈ loads t, ∃ m, (arrivals t)[y.1]? = some (m, y.2)
  once : ((replies t).map Prod.fst).Nodup
  /-- A reply tells that an update was stored, or that there was nothing left to replace the file with. -/
  replied : ∀ y ∈ replies t, w.handlers[y.1]? = some none ∧ ∃ m u, (arrivals t)[y.1]? = some (m, u) ∧
    (y.2 = m.stored ∨ (y.2 = m.notStored (.notReplaced v.settings.path .notFound) ∧ ¬ Successive t))

theorem interwoven_start (hready : x.Ready v.settings w.state.fs s₀) (hnone : w.handlers = []) :
    Interwoven v x locate s₀ [] w where
  stored := ⟨[], List.Sublist.slnil, hready, fun _ _ ↦ rfl⟩
  count := by rw [hnone]; rfl
  going n h hn := by simp [hnone] at hn
  ended n hn := by simp [hnone] at hn
  distinct := List.nodup_nil
  loaded y hy := by cases hy
  once := List.nodup_nil
  replied y hy := by cases hy

namespace Interwoven

variable (hall : Interwoven v x locate s₀ t w)
include hall

/-- A handler that goes on has not replied. -/
theorem not_replied_of_length_le (hn : w.handlers.length ≤ n) : ¬ Replied t n := by
  rintro ⟨r, hr⟩
  obtain ⟨hover, -⟩ := hall.replied _ hr
  exact absurd (List.getElem?_eq_some_iff.mp hover).1 (Nat.not_lt.mpr hn)

/-- Neither handlers nor files change. -/
theorem other (hhandlers : w'.handlers = w.handlers) (hfs : w'.state.fs = w.state.fs) :
    Interwoven v x locate s₀ (t ++ [.other]) w' := by
  have hreplied (n : Nat) : Replied (t ++ [.other]) n ↔ Replied t n := by
    simp [Replied, UpdateEvent.reply?]
  constructor
  · obtain ⟨l, hl, hready, hlast⟩ := hall.stored
    refine ⟨l, by simpa [UpdateEvent.load?] using hl, hfs ▸ hready, fun ht hended ↦ ?_⟩
    simpa [UpdateEvent.load?] using hlast ht.of_concat (by simpa [UpdateEvent.load?, hreplied] using hended)
  · simpa [hhandlers, UpdateEvent.arrival?] using hall.count
  · intro n h hn
    obtain ⟨hnot, u, stage, hu, hat, hfits⟩ := hall.going n h (hhandlers ▸ hn)
    exact ⟨by rwa [hreplied], u, stage, by simpa [UpdateEvent.arrival?] using hu, hat,
      hfits.concat rfl (fun _ ↦ hfs ▸ id) fun _ ↦ hfs⟩
  · simpa [hhandlers, hreplied, UpdateEvent.load?] using hall.ended
  · simpa [UpdateEvent.load?] using hall.distinct
  · simpa [UpdateEvent.load?, UpdateEvent.arrival?] using hall.loaded
  · simpa [UpdateEvent.reply?] using hall.once
  · intro y hy
    obtain ⟨hover, m, u, hu, hr⟩ := hall.replied y (by simpa [UpdateEvent.reply?] using hy)
    exact ⟨hhandlers ▸ hover, m, u, by simpa [UpdateEvent.arrival?] using hu,
      hr.imp_right fun h ↦ ⟨h.1, fun ht ↦ h.2 ht.of_concat⟩⟩

/-- A message arrives. -/
theorem arrive {message : PageMessage}
    (hparse : Request.parse message.name message.userInfo = .ok (.updateSettings u)) :
    Interwoven v x locate s₀ (t ++ [.arrived message u])
      { w with handlers := w.handlers ++ [some (.begin message)] } := by
  have hreplied (n : Nat) : Replied (t ++ [.arrived message u]) n ↔ Replied t n := by
    simp [Replied, UpdateEvent.reply?]
  have harrived {n : Nat} {a : PageMessage × Settings.Update} (ha : (arrivals t)[n]? = some a) :
      (arrivals (t ++ [.arrived message u]))[n]? = some a := by
    rw [UpdateEvent.arrivals_concat, List.getElem?_append_left (List.getElem?_eq_some_iff.mp ha).1, ha]
  constructor
  · obtain ⟨l, hl, hready, hlast⟩ := hall.stored
    refine ⟨l, by simpa [UpdateEvent.load?] using hl, hready, fun ht hended ↦ ?_⟩
    simpa [UpdateEvent.load?] using hlast ht.of_concat (by simpa [UpdateEvent.load?, hreplied] using hended)
  · simpa [UpdateEvent.arrival?] using hall.count
  · intro n h hn
    rcases getElem?_concat_eq_some.mp hn with hn | ⟨rfl, heq⟩
    · obtain ⟨hnot, u, stage, hu, hat, hfits⟩ := hall.going n h hn
      exact ⟨by rwa [hreplied], u, stage, harrived hu, hat, hfits.concat rfl (fun _ ↦ id) fun _ ↦ rfl⟩
    · obtain rfl := Option.some.inj heq
      refine ⟨by simpa [hreplied] using hall.not_replied_of_length_le le_rfl, u, .begun, ?_, .arrived hparse,
        .begun fun y hy heq ↦ ?_⟩
      · rw [UpdateEvent.arrivals_concat, hall.count, List.getElem?_append_right le_rfl, Nat.sub_self]
        rfl
      · obtain ⟨m, hm⟩ := hall.loaded y (by simpa [UpdateEvent.load?] using hy)
        have hlt := (List.getElem?_eq_some_iff.mp hm).1
        rw [heq, hall.count] at hlt
        exact Nat.lt_irrefl _ hlt
  · intro n hn
    rcases getElem?_concat_eq_some.mp hn with hn | ⟨-, heq⟩
    · simpa [hreplied, UpdateEvent.load?] using hall.ended n hn
    · cases heq
  · simpa [UpdateEvent.load?] using hall.distinct
  · intro y hy
    obtain ⟨m, hm⟩ := hall.loaded y (by simpa [UpdateEvent.load?] using hy)
    exact ⟨m, harrived hm⟩
  · simpa [UpdateEvent.reply?] using hall.once
  · intro y hy
    obtain ⟨hover, m, u, hu, hr⟩ := hall.replied y (by simpa [UpdateEvent.reply?] using hy)
    exact ⟨getElem?_concat_eq_some.mpr (Or.inl hover), m, u, harrived hu,
      hr.imp_right fun h ↦ ⟨h.1, fun ht ↦ h.2 ht.of_concat⟩⟩

/-- A handler goes on. -/
theorem go {h h' : Handler} {loading? : Option Settings.Update} {sv : ServiceState}
    (hn : w.handlers[n]? = some (some h)) (hu : (arrivals t)[n]? = some (h.message, u))
    (hmessage : h'.message = h.message) (hat : h'.At (locate n) u stage)
    (hload : ∀ u' ∈ loading?, u' = u ∧ ∀ y ∈ loads t, y.1 ≠ n)
    (hstored : ∃ l, l.Sublist (loads t) ∧ x.Ready v.settings sv.fs (s₀.after locate l) ∧
      (loading? = none → Successive t → (∀ y ∈ loads t, Replied t y.1) → l = loads t))
    (hfits : Fits x v.settings locate s₀ (t ++ [.turn n loading? none]) sv.fs n u stage)
    (hothers : ∀ m u' stage, m ≠ n → ¬ Replied t m → Fits x v.settings locate s₀ t w.state.fs m u' stage →
      Fits x v.settings locate s₀ (t ++ [.turn n loading? none]) sv.fs m u' stage) :
    Interwoven v x locate s₀ (t ++ [.turn n loading? none])
      { w with state := sv, handlers := w.handlers.set n (some h') } := by
  have hreplied (n : Nat) (e : Option Settings.Update) : Replied (t ++ [.turn n e none]) = Replied t := by
    funext k
    simp [Replied, UpdateEvent.reply?]
  have harrivals : arrivals (t ++ [.turn n loading? none]) = arrivals t := by simp [UpdateEvent.arrival?]
  have hnot := (hall.going n h hn).1
  have hloads : loads (t ++ [.turn n loading? none]) = loads t ++ (loading?.map fun u ↦ (n, u)).toList := by
    cases loading? <;> simp [UpdateEvent.load?]
  constructor
  · obtain ⟨l, hl, hready, hlast⟩ := hstored
    refine ⟨l, hl.trans (by simp), hready, fun ht hended ↦ ?_⟩
    rw [hreplied, hloads] at hended
    cases loading? with
    | none =>
      rw [hloads]
      simpa using hlast rfl ht.of_concat (by simpa using hended)
    | some u => exact absurd (hended (n, u) (by simp)) hnot
  · simpa [harrivals] using hall.count
  · intro m hm hgoes
    rw [hreplied, harrivals]
    rcases (getElem?_set_eq_some hn).mp hgoes with ⟨rfl, heq⟩ | ⟨hne, hm'⟩
    · obtain rfl := Option.some.inj heq
      exact ⟨hnot, u, stage, hmessage ▸ hu, hat, hfits⟩
    · obtain ⟨hnot', u', stage', hu', hat', hfits'⟩ := hall.going m hm hm'
      exact ⟨hnot', u', stage', hu', hat', hothers m u' stage' hne hnot' hfits'⟩
  · intro m hm
    rw [hreplied, hloads]
    rcases (getElem?_set_eq_some hn).mp hm with ⟨-, heq⟩ | ⟨-, hm⟩
    · cases heq
    · obtain ⟨hover, y, hy, hym⟩ := hall.ended m hm
      exact ⟨hover, y, List.mem_append_left _ hy, hym⟩
  · rw [hloads]
    cases loading? with
    | none => simpa using hall.distinct
    | some u' =>
      rw [List.map_append, List.nodup_append_comm]
      refine List.nodup_cons.mpr ⟨fun hmem ↦ ?_, hall.distinct⟩
      obtain ⟨y, hy, hyn⟩ := List.mem_map.mp hmem
      exact (hload u' rfl).2 y hy hyn
  · intro y hy
    rw [harrivals]
    rcases List.mem_append.mp (hloads ▸ hy) with hy | hy
    · exact hall.loaded y hy
    · obtain ⟨u', hu', rfl⟩ := Option.map_eq_some_iff.mp (Option.mem_toList.mp hy)
      obtain ⟨rfl, -⟩ := hload u' hu'
      exact ⟨_, hu⟩
  · simpa [UpdateEvent.reply?] using hall.once
  · intro y hy
    have hy : y ∈ replies t := by simpa [UpdateEvent.reply?] using hy
    obtain ⟨hover, m, u', hu', hr⟩ := hall.replied y hy
    rw [harrivals]
    refine ⟨(getElem?_set_eq_some hn).mpr (Or.inr ⟨fun heq ↦ ?_, hover⟩), m, u', hu',
      hr.imp_right fun h ↦ ⟨h.1, fun ht ↦ h.2 ht.of_concat⟩⟩
    exact hnot (heq ▸ ⟨y.2, hy⟩)

/-- A handler replies. -/
theorem reply {h : Handler} {r : Reply} {sv : ServiceState} (hn : w.handlers[n]? = some (some h))
    (hu : (arrivals t)[n]? = some (h.message, u)) (hloaded : (n, u) ∈ loads t)
    (hr : r = h.message.stored ∨
      (r = h.message.notStored (.notReplaced v.settings.path .notFound) ∧ ¬ Successive t))
    (hstored : ∃ l, l.Sublist (loads t) ∧ x.Ready v.settings sv.fs (s₀.after locate l) ∧
      (Successive t → l = loads t))
    (hothers : ∀ m u' stage, m ≠ n → Fits x v.settings locate s₀ t w.state.fs m u' stage →
      Fits x v.settings locate s₀ (t ++ [.turn n none (some r)]) sv.fs m u' stage) :
    Interwoven v x locate s₀ (t ++ [.turn n none (some r)])
      { w with state := sv, handlers := w.handlers.set n none } := by
  have hnot := (hall.going n h hn).1
  have harrivals : arrivals (t ++ [.turn n none (some r)]) = arrivals t := by simp [UpdateEvent.arrival?]
  have hloads : loads (t ++ [.turn n none (some r)]) = loads t := by simp [UpdateEvent.load?]
  have hreplies : replies (t ++ [.turn n none (some r)]) = replies t ++ [(n, r)] := by
    simp [UpdateEvent.reply?]
  constructor
  · obtain ⟨l, hl, hready, hlast⟩ := hstored
    rw [hloads]
    exact ⟨l, hl, hready, fun ht _ ↦ hlast ht.of_concat⟩
  · simpa [harrivals] using hall.count
  · intro m hm hgoes
    rw [harrivals]
    rcases (getElem?_set_eq_some hn).mp hgoes with ⟨-, heq⟩ | ⟨hne, hm'⟩
    · cases heq
    · obtain ⟨hnot', u', stage', hu', hat', hfits'⟩ := hall.going m hm hm'
      refine ⟨?_, u', stage', hu', hat', hothers m u' stage' hne hfits'⟩
      rintro ⟨r', hr'⟩
      rcases List.mem_append.mp (hreplies ▸ hr') with hr' | hr'
      · exact hnot' ⟨r', hr'⟩
      · exact hne (Prod.mk.inj (List.mem_singleton.mp hr')).1
  · intro m hm
    rw [hloads]
    rcases (getElem?_set_eq_some hn).mp hm with ⟨rfl, -⟩ | ⟨-, hm⟩
    · exact ⟨⟨r, by simp [hreplies]⟩, _, hloaded, rfl⟩
    · obtain ⟨hover, hy⟩ := hall.ended m hm
      exact ⟨hover.concat, hy⟩
  · rw [hloads]
    exact hall.distinct
  · rw [hloads, harrivals]
    exact hall.loaded
  · rw [hreplies, List.map_append, List.nodup_append_comm]
    refine List.nodup_cons.mpr ⟨fun hmem ↦ ?_, hall.once⟩
    obtain ⟨y, hy, rfl⟩ := List.mem_map.mp hmem
    exact hnot ⟨y.2, hy⟩
  · intro y hy
    rw [harrivals]
    rcases List.mem_append.mp (hreplies ▸ hy) with hy | hy
    · obtain ⟨hover, m, u', hu', hr'⟩ := hall.replied y hy
      refine ⟨(getElem?_set_eq_some hn).mpr (Or.inr ⟨fun heq ↦ ?_, hover⟩), m, u', hu',
        hr'.imp_right fun h ↦ ⟨h.1, fun ht ↦ h.2 ht.of_concat⟩⟩
      exact hnot (heq ▸ ⟨y.2, hy⟩)
    · obtain rfl := List.mem_singleton.mp hy
      exact ⟨(getElem?_set_eq_some hn).mpr (Or.inl ⟨rfl, rfl⟩), _, u, hu,
        hr.imp_right fun h ↦ ⟨h.1, fun ht ↦ h.2 ht.of_concat⟩⟩

/-- A handler takes a turn in which it comes to another stage. -/
theorem move {h h' : Handler} {stage stage' : UpdateStage} {loading? : Option Settings.Update}
    (hn : w.handlers[n]? = some (some h)) (hu : (arrivals t)[n]? = some (h.message, u))
    (hfits : Fits x v.settings locate s₀ t w.state.fs n u stage)
    (hturn : UpdateStage.Turn v.settings w.state.fs h.message u (locate n) stage loading? (.inl stage') fs')
    (hmessage : h'.message = h.message) (hat : h'.At (locate n) u stage') :
    Interwoven v x locate s₀ (t ++ [.turn n loading? none])
      { w with state := w.state.withFiles fs', handlers := w.handlers.set n (some h') } := by
  have hnot := (hall.going n h hn).1
  obtain ⟨l, hl, hready, hlast⟩ := hall.stored
  cases hturn with
  | begin =>
    exact hall.go hn hu hmessage hat (by simp) ⟨l, hl, hready, fun _ ↦ hlast⟩
      (hfits.concat rfl (fun _ ↦ id) fun _ ↦ rfl)
      fun m u' stage _ _ hfits ↦ hfits.concat rfl (fun _ ↦ id) fun _ ↦ rfl
  | wait =>
    exact hall.go hn hu hmessage hat (by simp) ⟨l, hl, hready, fun _ ↦ hlast⟩
      (hfits.concat rfl (fun _ ↦ id) fun _ ↦ rfl)
      fun m u' stage _ _ hfits ↦ hfits.concat rfl (fun _ ↦ id) fun _ ↦ rfl
  | @load s hload =>
    cases hfits with
    | begun hbegun =>
      obtain rfl := Except.ok.inj (hready.load.symm.trans hload)
      refine hall.go hn hu hmessage hat (by simpa using hbegun) ⟨l, hl, hready, by simp⟩ (.loaded ⟨?_, ?_⟩)
        fun m u' stage hne hnot hfits ↦ hfits.load rfl hne.symm hnot
      · refine ⟨l, by simpa [UpdateEvent.load?] using hl, rfl, fun ht ↦ ?_⟩
        rw [hlast ht.of_concat (ht.last rfl)]
        simp [UpdateEvent.load?]
      · refine fun ht ↦ ⟨hready, fun y hy hne ↦ ?_⟩
        rcases List.mem_append.mp (UpdateEvent.loads_concat _ ▸ hy) with hy | hy
        · exact (ht.last rfl y hy).concat
        · obtain rfl := List.mem_singleton.mp hy
          exact absurd rfl hne
  | @place s _ hmake =>
    obtain ⟨hopen, hready', -⟩ := hready.of_makeFolder hmake
    have hkept (s : Settings) (h : x.Ready v.settings w.state.fs s) : x.Ready v.settings fs' s :=
      (h.of_makeFolder hmake).2.1
    cases hfits with
    | loaded hhas =>
      exact hall.go hn hu hmessage hat (by simp) ⟨l, hl, hready', fun _ ↦ hlast⟩
        (.placed (hhas.concat rfl (hkept s)) hopen)
        fun m u' stage _ _ hfits ↦ hfits.concat rfl hkept (hready.of_makeFolder hmake).2.2
  | @stage s _ hwrite =>
    cases hfits with
    | placed hhas hopen =>
      obtain ⟨hopen', hload, hbeside⟩ := hopen.of_writeStaging hwrite
      have hkept (s : Settings) (h : x.Ready v.settings w.state.fs s) : x.Ready v.settings fs' s :=
        hopen'.ready (hload.trans h.load)
      have hmade : ∀ p ∈ some (s.apply (u.located (locate n))), Made locate s₀ t p := by
        intro p hp
        rw [← Option.some.inj hp]
        exact hhas.made_apply
      exact hall.go hn hu hmessage hat (by simp) ⟨l, hl, hkept _ hready, fun _ ↦ hlast⟩
        (.staged (hhas.concat rfl (hkept s)) hopen' hbeside (fun p hp ↦ (hmade p hp).concat) fun _ ↦ rfl)
        fun m u' stage hne _ hfits ↦ hfits.write rfl hhas.mem_loads hne.symm hnot hopen' hbeside hmade

/-- A handler takes a turn in which it replies. -/
theorem finish {h : Handler} {stage : UpdateStage} {loading? : Option Settings.Update} {r : Reply}
    (hn : w.handlers[n]? = some (some h)) (hu : (arrivals t)[n]? = some (h.message, u))
    (hfits : Fits x v.settings locate s₀ t w.state.fs n u stage)
    (hturn : UpdateStage.Turn v.settings w.state.fs h.message u (locate n) stage loading? (.inr r) fs') :
    Interwoven v x locate s₀ (t ++ [.turn n none (some r)])
      { w with state := w.state.withFiles fs', handlers := w.handlers.set n none } := by
  have hnot := (hall.going n h hn).1
  cases hturn with
  | @store s _ hreplace =>
    cases hfits with
    | staged hhas hopen hbeside hmade hown =>
      obtain ⟨p, rfl, hopen', hload, hnone⟩ := hopen.of_replace hbeside hreplace
      refine hall.reply hn hu hhas.mem_loads (Or.inl rfl) ?_ fun m u' stage hne hfits ↦
        hfits.write rfl hhas.mem_loads hne.symm hnot hopen' hnone (by simp)
      by_cases ht : Successive t
      · obtain ⟨l, hl, rfl, hlast⟩ := hhas.made
        obtain rfl := Option.some.inj (hown ht)
        refine ⟨l ++ [(n, u)], hl, ?_, fun _ ↦ hlast ht⟩
        rw [Settings.after_concat]
        exact hopen'.ready hload
      · obtain ⟨l, hl, rfl⟩ := hmade p rfl
        exact ⟨l, hl, hopen'.ready hload, fun h ↦ absurd h ht⟩
  | @lose s error hreplace =>
    cases hfits with
    | staged hhas hopen hbeside hmade hown =>
      obtain ⟨rfl, rfl⟩ := hopen.of_replace_eq_error hbeside hreplace
      have ht : ¬ Successive t := fun ht ↦ by cases hown ht
      obtain ⟨l, hl, hready, -⟩ := hall.stored
      exact hall.reply hn hu hhas.mem_loads (Or.inr ⟨rfl, ht⟩) ⟨l, hl, hready, fun h ↦ absurd h ht⟩
        fun m u' stage _ hfits ↦ hfits.concat rfl (fun _ ↦ id) fun _ ↦ rfl

/-- What the turn of a handler that goes on comes to. -/
theorem turn_cases {h : Handler} (hn : w.handlers[n]? = some (some h)) :
    ∃ u stage next fs', (arrivals t)[n]? = some (h.message, u) ∧
      Fits x v.settings locate s₀ t w.state.fs n u stage ∧
      UpdateStage.Turn v.settings w.state.fs h.message u (locate n) stage h.loading? next fs' ∧
      h.Goes (locate n) u w.state fs' next (h.turn v w.now 0 (h.newsOf (locate n)) w.state) := by
  obtain ⟨-, u, stage, hu, hat, hfits⟩ := hall.going n h hn
  obtain ⟨l, -, hready, -⟩ := hall.stored
  obtain ⟨next, fs', hturn, hgoes⟩ := hat.turn hready hfits.isOpen
  exact ⟨u, stage, next, fs', hu, hfits, hturn, hgoes⟩

/-- The steps of handlers of updates keep what is known. -/
theorem step (hstep : w.Updating v locate e w') : Interwoven v x locate s₀ (t ++ [e]) w' := by
  cases hstep with
  | arrive message hparse => exact hall.arrive hparse
  | inside h => exact hall.other rfl rfl
  | pass d => exact hall.other rfl rfl
  | @turn n _ _ h =>
    simp only [updateTurn] at h
    split at h
    · rename_i hd hn
      obtain ⟨u, stage, next, fs', hu, hfits, hturn, hgoes⟩ := hall.turn_cases hn
      generalize hresult : hd.turn v w.now 0 (hd.newsOf (locate n)) w.state = result at h hgoes
      cases hgoes with
      | moved hmessage _ hat =>
        obtain ⟨rfl, rfl⟩ := Prod.mk.inj (Option.some.inj h)
        exact hall.move hn hu hfits hturn hmessage hat
      | finished r =>
        obtain ⟨rfl, rfl⟩ := Prod.mk.inj (Option.some.inj h)
        exact hall.finish hn hu hfits hturn
    · cases h

end Interwoven

theorem interwoven_of_run {w₀ : ServiceWorld} (hready : x.Ready v.settings w₀.state.fs s₀)
    (hnone : w₀.handlers = []) (hrun : Run (Updating v locate) w₀ t w) : Interwoven v x locate s₀ t w :=
  hrun.invariant (interwoven_start hready hnone) fun _ _ _ _ _ hall hstep ↦ hall.step hstep

/-! ### Ends -/

/-- No handler goes on. -/
def IsQuiet (w : ServiceWorld) : Prop := ∀ (n : Nat) (h : Handler), w.handlers[n]? ≠ some (some h)

theorem isQuiet_iff : w.IsQuiet ↔ w.handlers.all Option.isNone = true := by
  rw [List.all_eq_true]
  constructor
  · intro hquiet h hmem
    obtain ⟨n, hn⟩ := List.mem_iff_getElem?.mp hmem
    cases h with
    | none => rfl
    | some h => exact absurd hn (hquiet n h)
  · intro hall n h hn
    cases hall _ (List.mem_of_getElem? hn)

instance : DecidablePred IsQuiet := fun _ ↦ decidable_of_iff _ isQuiet_iff.symm

/-- How many turns the handlers of updates may still take. -/
def turnsLeft (w : ServiceWorld) : Nat := (w.handlers.map fun h ↦ h.elim 0 Handler.turnsLeft).sum

theorem sum_map_set_lt {α : Type} {g : α → Nat} {l : List α} {a b : α} (hn : l[n]? = some a) (hlt : g b < g a) :
    ((l.set n b).map g).sum < (l.map g).sum := by
  induction l generalizing n with
  | nil => cases hn
  | cons c l ih =>
    cases n with
    | zero =>
      obtain rfl := Option.some.inj hn
      simpa using hlt
    | succ n => simpa using ih hn

theorem turnsLeft_set_lt {h : Handler} {o : Option Handler} {sv : ServiceState}
    (hn : w.handlers[n]? = some (some h)) (hlt : o.elim 0 Handler.turnsLeft < h.turnsLeft) :
    turnsLeft { w with state := sv, handlers := w.handlers.set n o } < w.turnsLeft :=
  sum_map_set_lt hn hlt

namespace Interwoven

/-- A handler that is not over can take a turn, with which it comes nearer to its end. -/
theorem exists_turn (hall : Interwoven v x locate s₀ t w) {h : Handler} (hn : w.handlers[n]? = some (some h)) :
    ∃ e w', w.Updating v locate e w' ∧ w'.turnsLeft < w.turnsLeft := by
  obtain ⟨u, stage, next, fs', -, -, -, hgoes⟩ := hall.turn_cases hn
  generalize hresult : h.turn v w.now 0 (h.newsOf (locate n)) w.state = result at hgoes
  cases hgoes with
  | moved _ hless =>
    exact ⟨_, _, .turn (n := n) (by simp only [updateTurn, hn, hresult]; rfl),
      turnsLeft_set_lt (o := some _) hn hless⟩
  | finished r hless =>
    exact ⟨_, _, .turn (n := n) (by simp only [updateTurn, hn, hresult]; rfl),
      turnsLeft_set_lt (o := none) hn hless⟩

/-- All handlers can come to their ends. -/
theorem exists_run_isQuiet (hall : Interwoven v x locate s₀ t w) :
    ∃ more w', Run (Updating v locate) w more w' ∧ w'.IsQuiet := by
  generalize hleft : w.turnsLeft = left
  induction left using Nat.strong_induction_on generalizing t w with
  | _ left ih =>
    by_cases hquiet : w.IsQuiet
    · exact ⟨[], w, .nil, hquiet⟩
    · simp only [IsQuiet, not_forall, not_not] at hquiet
      obtain ⟨n, h, hn⟩ := hquiet
      obtain ⟨e, w₁, hstep, hless⟩ := hall.exists_turn hn
      obtain ⟨more, w', hrun, hquiet⟩ := ih _ (hleft ▸ hless) (hall.step hstep) rfl
      exact ⟨[e] ++ more, w', (Run.nil.snoc hstep).append hrun, hquiet⟩

variable (hall : Interwoven v x locate s₀ t w)
include hall

/-- When all handlers are over, each of them has replied. -/
theorem replied_of_isQuiet (hquiet : w.IsQuiet) (hn : n < (arrivals t).length) :
    Replied t n ∧ ∃ y ∈ loads t, y.1 = n := by
  obtain ⟨h, hget⟩ : ∃ h, w.handlers[n]? = some h := ⟨_, List.getElem?_eq_getElem (hall.count ▸ hn)⟩
  cases h with
  | none => exact hall.ended n hget
  | some h => exact absurd hget (hquiet n h)

/-- When all handlers are over, the settings were loaded once for each update. -/
theorem perm_of_isQuiet (hquiet : w.IsQuiet) :
    (loads t).Perm (numbered t) := by
  have hnumbers : (numbered t).map Prod.fst = List.range (arrivals t).length :=
    List.ext_getElem (by simp [numbered]) fun n _ _ ↦ by simp [numbered]
  refine (List.perm_ext_iff_of_nodup hall.distinct.of_map ?_).mpr fun y ↦ ?_
  · exact List.Nodup.of_map Prod.fst (hnumbers ▸ List.nodup_range)
  · rw [numbered, List.mem_mapIdx]
    constructor
    · intro hy
      obtain ⟨m, hm⟩ := hall.loaded y hy
      obtain ⟨hlt, hget⟩ := List.getElem?_eq_some_iff.mp hm
      exact ⟨y.1, hlt, by rw [hget]⟩
    · rintro ⟨n, hn, rfl⟩
      obtain ⟨-, y, hy, rfl⟩ := hall.replied_of_isQuiet hquiet hn
      obtain ⟨m, hm⟩ := hall.loaded y hy
      obtain ⟨_, hget⟩ := List.getElem?_eq_some_iff.mp hm
      rwa [hget]

end Interwoven

/-- What is stored when updates are handled in any order, and what is replied. Some of the updates may be
lost, unless they are handled one after the other. -/
theorem stored_of_updates {w₀ : ServiceWorld} (hready : x.Ready v.settings w₀.state.fs s₀)
    (hnone : w₀.handlers = []) (hrun : Run (Updating v locate) w₀ t w) :
    -- Stored is what some of the updates make of the first settings, in the order of their loads.
    (∃ l, l.Sublist (loads t) ∧ v.settings.load w.state.fs = .ok (s₀.after locate l)) ∧
    -- Each handler replies once, that its update was stored or that it had nothing to replace the file with.
    ((replies t).map Prod.fst).Nodup ∧
    (∀ n r, (n, r) ∈ replies t → ∃ m u, (arrivals t)[n]? = some (m, u) ∧
      (r = m.stored ∨ r = m.notStored (.notReplaced v.settings.path .notFound))) ∧
    -- All handlers can come to their ends; then all have replied, and the settings were loaded once for each.
    (∃ more w', Run (Updating v locate) w more w' ∧ w'.IsQuiet) ∧
    (w.IsQuiet → (∀ n, n < (arrivals t).length → Replied t n) ∧
      (loads t).Perm (numbered t)) ∧
    -- When updates do not overlap, all of them are stored, one after the other.
    (Successive t → (∀ n r, (n, r) ∈ replies t → ∃ m u, (arrivals t)[n]? = some (m, u) ∧ r = m.stored) ∧
      (w.IsQuiet → v.settings.load w.state.fs = .ok (s₀.after locate (loads t)))) := by
  have hall := interwoven_of_run hready hnone hrun
  obtain ⟨l, hl, hstored, hlast⟩ := hall.stored
  refine ⟨⟨l, hl, hstored.load⟩, hall.once, fun n r hr ↦ ?_, hall.exists_run_isQuiet, fun hquiet ↦
    ⟨fun n hn ↦ (hall.replied_of_isQuiet hquiet hn).1, hall.perm_of_isQuiet hquiet⟩, fun ht ↦
    ⟨fun n r hr ↦ ?_, fun hquiet ↦ ?_⟩⟩
  · obtain ⟨-, m, u, hu, hcases⟩ := hall.replied _ hr
    exact ⟨m, u, hu, hcases.imp_right And.left⟩
  · obtain ⟨-, m, u, hu, hcases⟩ := hall.replied _ hr
    exact ⟨m, u, hu, hcases.resolve_right fun h ↦ h.2 ht⟩
  · have hended : ∀ y ∈ loads t, Replied t y.1 := by
      intro y hy
      obtain ⟨m, hm⟩ := hall.loaded y hy
      exact (hall.replied_of_isQuiet hquiet (List.getElem?_eq_some_iff.mp hm).1).1
    rw [← hlast ht hended]
    exact hstored.load

/-! ### Schedules -/

/-- Who takes a turn. -/
inductive UpdateMove where
  | arrive (message : PageMessage)
  | go (handler : Nat)

/-- What comes of a turn, if there is something to do. -/
def updateMove (v : Service) (locate : Nat → String → Option String) (w : ServiceWorld) :
    UpdateMove → Option (UpdateEvent × ServiceWorld)
  | .arrive message =>
    match Request.parse message.name message.userInfo with
    | .ok (.updateSettings u) =>
      some (.arrived message u, { w with handlers := w.handlers ++ [some (.begin message)] })
    | _ => none
  | .go n => w.updateTurn v locate n

theorem updating_of_updateMove {move : UpdateMove} (h : w.updateMove v locate move = some (e, w')) :
    w.Updating v locate e w' := by
  cases move with
  | arrive message =>
    simp only [updateMove] at h
    split at h
    · rename_i hparse
      obtain ⟨rfl, rfl⟩ := Prod.mk.inj (Option.some.inj h)
      exact .arrive message hparse
    · cases h
  | go n => exact .turn h

/-- Settings that are kept in the root folder. -/
def rootSettings : SettingsFile := ⟨⟨"/s.json"⟩, .usual⟩

def rootSite : Site := ⟨[.stay], [], "s.json".toList, "s.json.tmp".toList⟩

def rootService : Service := ⟨⟨⟨"/c"⟩, "", [], none⟩, rootSettings, 0⟩

def rootWorld : ServiceWorld := create ⟨"/c"⟩ default ⟨.empty, .none, .empty⟩

theorem ready_rootSite : rootSite.Ready rootSettings .empty .usual :=
  Site.Open.ready ⟨rfl, rfl, by decide, by decide, ⟨_, rfl⟩, (by rintro e ⟨⟩), (by rintro e ⟨⟩)⟩ rfl

/-- A server is chosen. -/
def choiceMessage : PageMessage := ⟨"updateSettings", .ofFields [("server", .string "custom")], none⟩

/-- It is said where the server is. -/
def placeMessage : PageMessage := ⟨"updateSettings", .ofFields [("server_path", .string "/l")], none⟩

/-- One update after the other. -/
def successiveMoves : List UpdateMove :=
  [.arrive choiceMessage, .arrive placeMessage, .go 0, .go 0, .go 0, .go 0, .go 0, .go 0, .go 1, .go 1, .go 1,
    .go 1, .go 1, .go 1]

/-- Both updates are stored when they are handled one after the other. -/
theorem stored_one_after_the_other : ∃ t w, Run (Updating rootService fun _ _ ↦ none) rootWorld t w ∧
    rootSite.Ready rootService.settings rootWorld.state.fs .usual ∧ rootWorld.handlers = [] ∧ Successive t ∧
    w.IsQuiet ∧ (arrivals t).length = 2 ∧
    rootSettings.load w.state.fs = .ok (Settings.usual.after (fun _ _ ↦ none) (loads t)) := by
  obtain ⟨t, w, hrun, hcheck⟩ := exists_run_of_play (updateMove rootService fun _ _ ↦ none)
    (fun _ _ _ _ ↦ updating_of_updateMove) rootWorld successiveMoves
    (fun t w ↦ decide (Successive t) && decide w.IsQuiet && decide ((arrivals t).length = 2)) (by decide +kernel)
  simp only [Bool.and_eq_true, decide_eq_true_eq] at hcheck
  obtain ⟨⟨ht, hquiet⟩, hlength⟩ := hcheck
  obtain ⟨-, -, -, -, -, hall⟩ := stored_of_updates (x := rootSite) ready_rootSite rfl hrun
  exact ⟨t, w, hrun, ready_rootSite, rfl, ht, hquiet, hlength, (hall ht).2 hquiet⟩

/-- Both handlers load the settings before one of them stores them. -/
def overlappingMoves : List UpdateMove :=
  [.arrive choiceMessage, .arrive placeMessage, .go 0, .go 0, .go 1, .go 1, .go 0, .go 0, .go 0, .go 1, .go 1,
    .go 1, .go 0, .go 1]

/-- The first handler stores what the second one has written, and the second one has nothing left to store:
the update of the first one is lost, and the second one replies that it has failed. -/
theorem exists_lost_update : ∃ t w, Run (Updating rootService fun _ _ ↦ none) rootWorld t w ∧
    rootSite.Ready rootService.settings rootWorld.state.fs .usual ∧ rootWorld.handlers = [] ∧ w.IsQuiet ∧
    (∃ y ∈ replies t, y.2.outcome = .error) ∧
    ∀ order : List (Nat × Settings.Update), order.Perm (numbered t) →
      rootSettings.load w.state.fs ≠ .ok (Settings.usual.after (fun _ _ ↦ none) order) := by
  obtain ⟨t, w, hrun, hcheck⟩ := exists_run_of_play (updateMove rootService fun _ _ ↦ none)
    (fun _ _ _ _ ↦ updating_of_updateMove) rootWorld overlappingMoves
    (fun t w ↦ decide w.IsQuiet && decide (∃ y ∈ replies t, y.2.outcome = .error) &&
      decide (∀ order ∈ List.permutations' (numbered t),
        (rootSettings.load w.state.fs).toOption ≠ some (Settings.usual.after (fun _ _ ↦ none) order)))
    (by decide +kernel)
  simp only [Bool.and_eq_true, decide_eq_true_eq] at hcheck
  obtain ⟨⟨hquiet, herror⟩, horders⟩ := hcheck
  refine ⟨t, w, hrun, ready_rootSite, rfl, hquiet, herror, fun order horder heq ↦ ?_⟩
  exact horders order (List.mem_permutations'.mpr horder) (congrArg Except.toOption heq)

end ServiceWorld

end CodeNav
