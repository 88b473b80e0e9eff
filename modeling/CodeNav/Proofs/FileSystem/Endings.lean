import CodeNav.Proofs.FileSystem.Ways
import CodeNav.Proofs.Repository.Checkout

/-!
# How paths end

A path *ends* in a piece when nothing but slashes and dots that say nothing come after the piece. Every path
that has a piece which says something ends in one: a name, or two dots. The path above it is what is left
without the piece, and a path with another suffix ends in another name.

## Main definitions

* `Path.EndsIn`: a path ends in a piece
* `Path.above`: the path that is left without the piece
* `FileSystem.stepOf`, `FileSystem.wayOf`: the step of a piece, and the steps of what stands before it

## Main statements

* `Path.stays_or_endsIn`: the paths that end in no piece
* `Path.EndsIn.steps`: the steps of a path that ends in a piece
* `Path.EndsIn.parent?`, `Path.EndsIn.withSuffix`: the path above, and the path with another suffix
-/

namespace CodeNav

namespace FileSystem

/-- The step of a piece that says something. -/
def stepOf (piece : List Char) : Step :=
  if piece = ['.', '.'] then .up else .down piece

/-- The steps of what stands before a piece, which is nothing or ends with a slash. -/
def wayOf (front : List Char) : List Step := (stepsOf front).dropLast

theorem stepOf_ne_stay (piece : List Char) : stepOf piece ≠ .stay := by
  rw [stepOf]
  split <;> simp

theorem stepOf_eq_down {piece : List Char} (h : piece ≠ ['.', '.']) : stepOf piece = .down piece := if_neg h

/-- A piece is one step. -/
theorem stepsOf_of_notMem {piece : List Char} (hslash : '/' ∉ piece) (hne : piece ≠ []) (hdot : piece ≠ ['.']) :
    stepsOf piece = [stepOf piece] := by
  simp [stepsOf, Text.splitOn_of_notMem hslash, stepOf, hne, hdot]

end FileSystem

namespace Path

open FileSystem (Step stepsOf stepOf wayOf)

variable {p : Path} {cs front last piece suffix : List Char}

/-! ### Ends that say nothing -/

/-- An end that says nothing makes no component. -/
theorem componentsOf_dropIdleEnd (back : List Char) :
    componentsOf (dropIdleEnd back).reverse = componentsOf back.reverse := by
  have hidle {rest : List Char} {piece : List Char} (hne : rest ≠ []) (hpiece : piece = [] ∨ piece = ['.']) :
      componentsOf (rest.reverse ++ '/' :: piece) = componentsOf rest.reverse := by
    rw [componentsOf_append_slash (mt List.reverse_eq_nil_iff.mp hne)]
    rcases hpiece with rfl | rfl <;> simp [Text.splitOn, Component.ofPiece?]
  fun_induction dropIdleEnd back with
  | case1 => rfl
  | case2 rest hne ih =>
    have hrest : rest ≠ [] := fun h ↦ hne h
    rw [ih, List.reverse_cons, hidle hrest (Or.inl rfl)]
  | case3 rest ih =>
    rw [ih, List.reverse_cons, List.reverse_cons, List.reverse_cons, List.append_assoc, List.singleton_append]
    rcases eq_or_ne rest [] with rfl | hne
    · rfl
    · rw [hidle hne (Or.inl rfl), hidle hne (Or.inr rfl)]
  | case4 => rfl

/-- What is left has no end that says nothing. -/
theorem dropIdleEnd_cases (back : List Char) : (back = [] ∧ dropIdleEnd back = []) ∨ dropIdleEnd back = ['/'] ∨
    ∃ c rest, dropIdleEnd back = c :: rest ∧ c ≠ '/' ∧ (c = '.' → rest.head? ≠ some '/') := by
  fun_induction dropIdleEnd back with
  | case1 => exact Or.inr (Or.inl rfl)
  | case2 rest hne ih => exact Or.inr (ih.resolve_left fun h ↦ hne h.1)
  | case3 rest ih => exact Or.inr (ih.resolve_left fun h ↦ List.cons_ne_nil _ _ h.1)
  | case4 cs hone hslash hdot =>
    rcases cs with _ | ⟨c, rest⟩
    · exact Or.inl ⟨rfl, rfl⟩
    · refine Or.inr (Or.inr ⟨c, rest, rfl, ?_, ?_⟩)
      · rintro rfl
        exact hslash rest rfl
      · rintro rfl hhead
        obtain ⟨more, rfl⟩ := List.head?_eq_some_iff.mp hhead
        exact hdot more rfl

/-- Nothing is left out a second time. -/
theorem dropIdleEnd_dropIdleEnd (back : List Char) : dropIdleEnd (dropIdleEnd back) = dropIdleEnd back := by
  rcases dropIdleEnd_cases back with ⟨-, hdrop⟩ | hdrop | ⟨c, rest, hdrop, hslash, hdot⟩
  · rw [hdrop]
    rfl
  · rw [hdrop]
    rfl
  · rw [hdrop, dropIdleEnd]
    · exact fun h ↦ hslash (List.cons.inj h).1
    · exact fun rest' h ↦ hslash (List.cons.inj h).1
    · rintro rest' h
      obtain ⟨rfl, rfl⟩ := List.cons.inj h
      exact hdot rfl rfl

/-! ### Ends that say something -/

/-- A path ends in a piece that says something. -/
structure EndsIn (p : Path) (front last : List Char) : Prop where
  drop : dropIdleEnd p.text.toList.reverse = last.reverse ++ front.reverse
  /-- A slash is before the piece, if anything is. -/
  front : front = [] ∨ ∃ f, front = f ++ ['/']
  slash : '/' ∉ last
  ne_nil : last ≠ []
  ne_dot : last ≠ ['.']

/-- What stands before the last piece of a path, as a path. -/
def above (front : List Char) : Path := ⟨String.ofList (dropIdleEnd front.reverse).reverse⟩

/-- Nothing idle is at the end of the path above. -/
theorem dropIdleEnd_above (front : List Char) :
    dropIdleEnd (above front).text.toList.reverse = (above front).text.toList.reverse := by
  rw [above, String.toList_ofList, List.reverse_reverse, dropIdleEnd_dropIdleEnd]

/-- A path is empty, says nothing but whether it begins at the root, or ends in a piece. -/
theorem exists_endsIn (p : Path) : p.text = "" ∨ dropIdleEnd p.text.toList.reverse = ['/'] ∨
    dropIdleEnd p.text.toList.reverse = ['.'] ∨ ∃ front last, p.EndsIn front last := by
  rcases dropIdleEnd_cases p.text.toList.reverse with ⟨hnil, -⟩ | hroot | ⟨c, rest, hdrop, hslash, hdot⟩
  · left
    exact String.toList_inj.mp (List.reverse_eq_nil_iff.mp hnil)
  · exact Or.inr (Or.inl hroot)
  · right; right
    rcases eq_or_ne (c :: rest) ['.'] with hone | hone
    · exact Or.inl (hdrop.trans hone)
    · have htake : (c :: rest).takeWhile (· ≠ '/') = c :: rest.takeWhile (· ≠ '/') :=
        List.takeWhile_cons_of_pos (by simpa using hslash)
      refine Or.inr ⟨((c :: rest).dropWhile (· ≠ '/')).reverse, ((c :: rest).takeWhile (· ≠ '/')).reverse,
        ?_, ?_, ?_, ?_, ?_⟩
      · rw [List.reverse_reverse, List.reverse_reverse, List.takeWhile_append_dropWhile, hdrop]
      · rcases heq : (c :: rest).dropWhile (· ≠ '/') with _ | ⟨d, more⟩
        · exact Or.inl rfl
        · have hd : d = '/' := by
            have hhead := List.head?_dropWhile_not (· ≠ '/') (c :: rest)
            rw [heq] at hhead
            simpa using hhead
          exact Or.inr ⟨more.reverse, by rw [hd, List.reverse_cons]⟩
      · intro hmem
        have hmem := List.all_eq_true.mp List.all_takeWhile _ (List.mem_reverse.mp hmem)
        simp at hmem
      · rw [htake, ne_eq, List.reverse_eq_nil_iff]
        exact List.cons_ne_nil _ _
      · rw [htake]
        intro heq
        obtain ⟨rfl, htail⟩ := List.cons.inj (List.reverse_eq_iff.mp heq)
        rcases rest with _ | ⟨d, more⟩
        · exact hone rfl
        · have hd : d = '/' := by
            by_contra hd
            simp [hd] at htail
          exact hdot rfl (by rw [hd]; rfl)

/-- A path that ends in no piece stays where it begins, and has no other suffix and nothing above it. -/
theorem stays_or_endsIn (p : Path) :
    ((∃ k, stepsOf p.text.toList = List.replicate (k + 1) .stay) ∧ (∀ suffix, p.withSuffix suffix = p) ∧
      ∀ q, p.parent? = some q → q.text.isEmpty = true) ∨ ∃ front last, p.EndsIn front last := by
  obtain ⟨k, hsteps⟩ := FileSystem.stepsOf_dropIdleEnd p.text.toList.reverse
  have hcomponents := componentsOf_dropIdleEnd p.text.toList.reverse
  rw [List.reverse_reverse] at hsteps hcomponents
  rcases exists_endsIn p with hnil | hroot | hdot | hends
  · left
    have htext : p.text.toList = [] := String.toList_eq_nil_iff.mpr hnil
    have hcomponents : p.components = [] := by rw [components, htext]; rfl
    refine ⟨⟨0, by rw [htext]; rfl⟩, fun suffix ↦ ?_, fun q hq ↦ ?_⟩
    · rw [withSuffix, hcomponents]
      rfl
    · rw [Path.parent?, hcomponents] at hq
      cases hq
  · left
    rw [hroot] at hsteps hcomponents
    have hcomponents : p.components = [.root] := hcomponents.symm
    refine ⟨⟨k + 1, by rw [hsteps, Nat.add_comm, List.replicate_add]; rfl⟩, fun suffix ↦ ?_, fun q hq ↦ ?_⟩
    · rw [withSuffix, hcomponents]
      rfl
    · rw [Path.parent?, hcomponents] at hq
      cases hq
  · left
    rw [hdot] at hsteps hcomponents
    have hcomponents : p.components = [.current] := hcomponents.symm
    refine ⟨⟨k, by rw [hsteps, List.replicate_succ]; rfl⟩, fun suffix ↦ ?_, fun q hq ↦ ?_⟩
    · rw [withSuffix, hcomponents]
      rfl
    · rw [Path.parent?, hcomponents] at hq
      simp only [List.getLast?_singleton, hdot, Option.some.injEq] at hq
      rw [← hq]
      rfl
  · exact Or.inr hends

namespace EndsIn

variable (h : p.EndsIn front last)
include h

theorem dropIdleEnd_eq : (dropIdleEnd p.text.toList.reverse).reverse = front ++ last := by
  rw [h.drop, List.reverse_append, List.reverse_reverse, List.reverse_reverse]

theorem dropWhile_eq : (dropIdleEnd p.text.toList.reverse).dropWhile (· ≠ '/') = front.reverse := by
  have hlast (c : Char) (hc : c ∈ last.reverse) : decide (c ≠ '/') = true :=
    decide_eq_true fun heq ↦ h.slash (heq ▸ List.mem_reverse.mp hc)
  rw [h.drop, List.dropWhile_append_of_pos hlast]
  rcases h.front with rfl | ⟨f, rfl⟩ <;> simp

theorem isEmpty_eq_false : p.text.isEmpty = false := by
  cases hempty : p.text.isEmpty with
  | false => rfl
  | true =>
    have hdrop := h.drop
    rw [String.isEmpty_iff.mp hempty] at hdrop
    exact absurd (List.reverse_eq_nil_iff.mp (List.append_eq_nil_iff.mp hdrop.symm).1) h.ne_nil

/-- The piece is the last component. -/
theorem components :
    p.components = componentsOf front ++ [if last = ['.', '.'] then .parent else .normal last] := by
  have hpiece : (Text.splitOn '/' last).filterMap Component.ofPiece? =
      [if last = ['.', '.'] then .parent else .normal last] := by
    rw [Text.splitOn_of_notMem h.slash]
    by_cases hdots : last = ['.', '.'] <;> simp [Component.ofPiece?, hdots, h.ne_nil, h.ne_dot]
  have hdrop := componentsOf_dropIdleEnd p.text.toList.reverse
  rw [List.reverse_reverse, h.dropIdleEnd_eq] at hdrop
  rw [Path.components, ← hdrop, ← hpiece]
  have hhead : last.head? ≠ some '/' := fun hhead ↦ h.slash (List.mem_of_mem_head? hhead)
  rcases h.front with rfl | ⟨f, rfl⟩
  · rw [List.nil_append, componentsOf_of_head?_ne hhead, Text.splitOn_of_notMem h.slash]
    simp [componentsOfPieces, h.ne_dot, componentsOf, Text.splitOn, Component.ofPiece?]
  · have hjoin := componentsOf_joinChars_of_ne_nil (p := f ++ ['/']) (by simp) hhead
    rwa [joinChars, if_neg hhead, if_pos (Or.inr List.getLast?_concat)] at hjoin

/-- The path above is what is left without the piece. -/
theorem parent? : p.parent? = some (above front) := by
  rw [Path.parent?, h.components, List.getLast?_concat, h.dropWhile_eq]
  by_cases hdots : last = ['.', '.'] <;> simp [hdots, above]

/-- The path above has one component less. -/
theorem length_components : p.components.length = (above front).components.length + 1 := by
  rw [h.components, List.length_append, List.length_singleton, above, Path.components, String.toList_ofList,
    componentsOf_dropIdleEnd, List.reverse_reverse]

omit h in
theorem stepsOf_front (h : front = [] ∨ ∃ f, front = f ++ ['/']) : stepsOf front = wayOf front ++ [.stay] := by
  rcases h with rfl | ⟨f, rfl⟩
  · rfl
  · have hsteps : stepsOf (f ++ ['/']) = stepsOf f ++ [.stay] := FileSystem.stepsOf_append_slash f []
    rw [wayOf, hsteps, List.dropLast_concat]

/-- A piece goes on from where the way before it leads. -/
theorem stepsOf_append (hslash : '/' ∉ piece) (hne : piece ≠ []) (hdot : piece ≠ ['.']) :
    stepsOf (front ++ piece) = wayOf front ++ [stepOf piece] := by
  have hpiece := FileSystem.stepsOf_of_notMem hslash hne hdot
  rcases h.front with rfl | ⟨f, rfl⟩
  · exact hpiece
  · have hsteps : stepsOf (f ++ ['/']) = stepsOf f ++ [.stay] := FileSystem.stepsOf_append_slash f []
    rw [wayOf, hsteps, List.dropLast_concat, List.append_assoc, List.singleton_append,
      FileSystem.stepsOf_append_slash, hpiece]

/-- The steps of a path that ends in a piece. -/
theorem steps : ∃ k, stepsOf p.text.toList = wayOf front ++ stepOf last :: List.replicate k .stay := by
  obtain ⟨k, hk⟩ := FileSystem.stepsOf_dropIdleEnd p.text.toList.reverse
  rw [List.reverse_reverse, h.dropIdleEnd_eq, h.stepsOf_append h.slash h.ne_nil h.ne_dot] at hk
  exact ⟨k, by rw [hk, List.append_assoc, List.singleton_append]⟩

/-- The path above leads where the way before the piece leads. -/
theorem steps_above : ∃ k, wayOf front ++ [.stay] =
    stepsOf (above front).text.toList ++ List.replicate k .stay := by
  obtain ⟨k, hk⟩ := FileSystem.stepsOf_dropIdleEnd front.reverse
  rw [List.reverse_reverse, stepsOf_front h.front] at hk
  exact ⟨k, by rw [hk, above, String.toList_ofList]⟩

/-- The path with another suffix ends in another name. -/
theorem withSuffix (hlast : last ≠ ['.', '.']) (suffix : String) :
    p.withSuffix suffix = ⟨String.ofList (front ++ ((cutSuffix last).1 ++ '.' :: suffix.toList))⟩ := by
  rw [Path.withSuffix, h.components, List.getLast?_concat, if_neg hlast]
  simp only [h.dropWhile_eq, List.reverse_reverse, List.append_assoc]

/-- A path that ends in two dots has no other suffix. -/
theorem withSuffix_of_dots (hlast : last = ['.', '.']) (suffix : String) : p.withSuffix suffix = p := by
  rw [Path.withSuffix, h.components, List.getLast?_concat, if_pos hlast]

end EndsIn

end Path

end CodeNav
