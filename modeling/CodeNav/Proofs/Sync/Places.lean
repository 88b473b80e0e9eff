import CodeNav.Proofs.Repository.Checkout
import CodeNav.Proofs.Sync.Turns

/-!
# Where calls work

A call works on the folder of the repository that its address spells, from beginning to end. Unless
the address spells a slug that hides dots, that folder lies strictly below the folder of its host and
is shared with no other repository. A slug that hides dots leads to another folder.

## Main definitions

* `CheckoutOrder.url`: the address that is asked for
* `CheckoutCall.Serves`: a call that was begun for an order

## Main statements

* `CheckoutCall.Serves.located_iff`: a call works elsewhere just when its address hides dots
* `CheckoutWorld.serves_of_run`: every call serves an order
* `CheckoutWorld.checkouts_apart`: where the folders of repositories are, and where calls work
* `CheckoutWorld.exists_elsewhere`: keys, and a call, that lead elsewhere
-/

namespace CodeNav

open RepositoryKey RepositoryAddress

/-- The address of what is asked for. -/
def CheckoutOrder.url : CheckoutOrder → String
  | synchronize url _ _ => url
  | remove url => url

namespace CheckoutCall

/-- A call that was begun for an order and has come any number of turns further, whatever others did
in between. -/
inductive Serves (o : SyncOptions) (order : CheckoutOrder) : CheckoutCall → Prop
  | begin {c c' : Checkouts} {k : CheckoutCall} (h : order.begin o c = (.inl k, c')) :
      Serves o order k
  | turn {now : Nat} {c c' : Checkouts} {news : SyncNews} {k k' : CheckoutCall}
      (hk : Serves o order k) (h : k.Moves o now c news k' c') : Serves o order k'

variable {o : SyncOptions} {order : CheckoutOrder} {c c' : Checkouts} {k : CheckoutCall}

/-- The repository of a call is that of the address that was asked for. -/
theorem parse_of_begin (h : order.begin o c = (.inl k, c')) :
    ∃ address, RepositoryAddress.parse order.url = .ok address ∧ k.key = address.key := by
  cases order with
  | synchronize url force token =>
    simp only [CheckoutOrder.begin, Synchronization.begin] at h
    split at h
    · simp at h
    · rename_i address path hlocate
      refine ⟨address, (locate_eq_ok hlocate).1, ?_⟩
      split at h <;> obtain rfl := Sum.inl.inj (Prod.mk.inj h).1 <;> rfl
  | remove url =>
    simp only [CheckoutOrder.begin, Removal.begin] at h
    split at h
    · simp at h
    · rename_i address path hlocate
      obtain rfl := Sum.inl.inj (Prod.mk.inj h).1
      exact ⟨address, (locate_eq_ok hlocate).1, rfl⟩

namespace Serves

theorem parse (h : k.Serves o order) :
    ∃ address, RepositoryAddress.parse order.url = .ok address ∧ k.key = address.key := by
  induction h with
  | begin h => exact parse_of_begin h
  | turn _ hmoves ih => rwa [hmoves.same.1]

theorem path_eq (h : k.Serves o order) : k.path = k.key.checkoutPath o.root := by
  induction h with
  | begin h => exact (begins_of_begin h).path_eq
  | turn _ hmoves ih => rwa [hmoves.same.1, hmoves.same.2]

/-- A call works elsewhere just when its address spells a slug that hides dots. -/
theorem located_iff (h : k.Serves o order) : ∃ url, urlOf order.url = .ok url ∧
    (k.key.Located o.root ↔ ¬HidesDots (slugOf url)) := by
  obtain ⟨address, hparse, hkey⟩ := h.parse
  obtain ⟨url, host, hurl, -, hnormal, hcomplete⟩ := key_of_parse hparse
  refine ⟨url, hurl, ?_⟩
  rw [hkey, hnormal]
  exact RepositoryKey.located_iff (hnormal ▸ hcomplete)

end Serves

end CheckoutCall

namespace CheckoutWorld

variable {o : SyncOptions} {fs : FileSystem} {events : List CheckoutEvent} {w : CheckoutWorld}
  {n : Nat} {k : CheckoutCall}

/-- Every call serves an order. -/
theorem serves_of_run (h : Run (Step o) (start fs) events w) (hn : w.Active n k) :
    ∃ order, k.Serves o order := by
  refine active_of_run (P := fun k ↦ ∃ order, k.Serves o order) (fun _ _ _ h ↦ h) ?_ ?_ h hn
  · intro u n k v hstep _
    cases hstep with
    | begin order hbegin => exact ⟨order, .begin hbegin⟩
  · rintro now c k news k' c' ⟨order, hserves⟩ hmoves
    exact ⟨order, hserves.turn hmoves⟩

/-- Folders of complete keys lie where they should unless the slug hides dots; those that do lie below
the folders of their hosts, and no two repositories share one; and calls work on the folder of the
repository that they were asked for. -/
theorem checkouts_apart (o : SyncOptions) (root : Path) :
    (∀ resource slug, (normalize resource slug).isComplete = true →
      ((normalize resource slug).Located root ↔ ¬HidesDots slug)) ∧
    (∀ key : RepositoryKey, key.Located root → ∃ pieces : List (List Char), 2 ≤ pieces.length ∧
      (key.checkoutPath root).components =
        (root.join key.resource).components ++ pieces.map .normal) ∧
    (∀ a b : RepositoryKey, a.Located root → b.Located root →
      (a.checkoutPath root).same (b.checkoutPath root) = true → a = b) ∧
    ∀ fs events w n k, Run (Step o) (start fs) events w → w.Active n k →
      ∃ order url, k.Serves o order ∧ urlOf order.url = .ok url ∧
        k.path = k.key.checkoutPath o.root ∧ (k.key.Located o.root ↔ ¬HidesDots (slugOf url)) := by
  refine ⟨fun resource slug ↦ located_iff, fun key ↦ Located.below_host,
    fun a b ↦ Located.eq_of_same, ?_⟩
  intro fs events w n k hrun hn
  obtain ⟨order, hserves⟩ := serves_of_run hrun hn
  obtain ⟨url, hurl, hlocated⟩ := hserves.located_iff
  exact ⟨order, url, hserves, hurl, hserves.path_eq, hlocated⟩

/-- A removal of `https://github.com/o/r` works on a folder that no other repository has. -/
theorem checkouts_apart_removal : ∃ events w k order url,
    Run (Step .plain) (start .empty) events w ∧ w.Active 0 k ∧ k.Serves .plain order ∧
      urlOf order.url = .ok url ∧ k.path = k.key.checkoutPath SyncOptions.plain.root ∧
      (k.key.Located SyncOptions.plain.root ↔ ¬HidesDots (slugOf url)) ∧
      k.key = normalize "github.com" "o/r.git" ∧ k.key.Located SyncOptions.plain.root ∧
      (∃ pieces : List (List Char), 2 ≤ pieces.length ∧ k.path.components =
        (SyncOptions.plain.root.join k.key.resource).components ++ pieces.map .normal) ∧
      ∀ b : RepositoryKey, b.Located SyncOptions.plain.root →
        (k.path.same (b.checkoutPath SyncOptions.plain.root) = true) → k.key = b := by
  obtain ⟨hnormal, hbelow, hsame, hcalls⟩ := checkouts_apart .plain SyncOptions.plain.root
  have hkey : (CheckoutOrder.begin .plain (.remove "https://github.com/o/r")
      (start .empty).checkouts).1.getLeft?.map CheckoutCall.key =
        some (normalize "github.com" "o/r.git") := by
    decide +kernel
  obtain ⟨k, hleft, hkey⟩ := Option.map_eq_some_iff.mp hkey
  have hrun : Run (Step .plain) (start .empty) _ _ :=
    Run.nil.snoc (.begin _ (Prod.ext (Sum.getLeft?_eq_some_iff.mp hleft) rfl))
  obtain ⟨order, url, hserves, hurl, hpath, hlocated⟩ := hcalls _ _ _ 0 k hrun rfl
  have hdown : (normalize "github.com" "o/r.git").Located SyncOptions.plain.root :=
    (hnormal "github.com" "o/r.git" (by decide +kernel)).mpr (by decide +kernel)
  rw [← hkey] at hdown
  refine ⟨_, _, k, order, url, hrun, rfl, hserves, hurl, hpath, hlocated, hkey, hdown, ?_, ?_⟩
  · rw [hpath]
    exact hbelow k.key hdown
  · intro b hb h
    exact hsame k.key b hdown hb (by rwa [hpath] at h)

/-- Complete keys whose slugs hide dots: one leads to the folder of the host, and one to that of
another repository. A removal that is asked for with such an address takes away the checkout of
another repository, which nobody else touches. -/
theorem exists_elsewhere :
    (normalize "github.com" "owner/...git").isComplete = true ∧
    ((normalize "github.com" "owner/...git").checkoutPath ⟨"/data"⟩).components =
      [.root, .normal "data".toList, .normal "github.com".toList, .normal "owner".toList, .parent] ∧
    (normalize "github.com" "owner/name/..git").isComplete = true ∧
    normalize "github.com" "owner/name/..git" ≠ normalize "github.com" "owner/name" ∧
    ((normalize "github.com" "owner/name/..git").checkoutPath ⟨"/data"⟩).same
      ((normalize "github.com" "owner/name").checkoutPath ⟨"/data"⟩) = true ∧
    ∃ events w k, Run (fun u e v ↦ Step .plain u e v ∧ (e.call? = none →
        v.checkouts.fs.present ⟨"/c/github.com/o/r"⟩ =
          u.checkouts.fs.present ⟨"/c/github.com/o/r"⟩)) (start .withCheckout) events w ∧
      w.calls = [some k] ∧ k.path = ⟨"/c/github.com/o/.."⟩ ∧
      FileSystem.withCheckout.present ⟨"/c/github.com/o/r"⟩ = true ∧
      w.checkouts.fs.present ⟨"/c/github.com/o/r"⟩ = false := by
  refine ⟨by decide +kernel, by decide +kernel, by decide +kernel, by decide +kernel,
    by decide +kernel, ?_⟩
  have hplay : (((start .withCheckout).play .plain fun u e v ↦ e.call? = none →
      v.checkouts.fs.present ⟨"/c/github.com/o/r"⟩ =
        u.checkouts.fs.present ⟨"/c/github.com/o/r"⟩)
      [.call (.remove "https://github.com/o/...git"), .go 0 .nothing, .go 0 .nothing,
        .go 0 .nothing]).any (fun x ↦ x.2.calls.head?.join.any (·.path = ⟨"/c/github.com/o/.."⟩) &&
      (x.2.calls.tail.isEmpty && !x.2.checkouts.fs.present ⟨"/c/github.com/o/r"⟩)) = true := by
    decide +kernel
  obtain ⟨⟨events, w⟩, hplay, hcheck⟩ := (Option.any_eq_true ..).mp hplay
  simp only [Bool.and_eq_true, List.isEmpty_iff, Bool.not_eq_true'] at hcheck
  obtain ⟨hpath, halone, hgone⟩ := hcheck
  obtain ⟨k, hk, hpath⟩ := (Option.any_eq_true ..).mp hpath
  obtain ⟨later, hcalls⟩ := List.head?_eq_some_iff.mp (Option.join_eq_some_iff.mp hk)
  rw [hcalls, List.tail_cons] at halone
  exact ⟨events, w, k, run_of_play hplay, halone ▸ hcalls, of_decide_eq_true hpath,
    by decide +kernel, hgone⟩

end CheckoutWorld

end CodeNav
