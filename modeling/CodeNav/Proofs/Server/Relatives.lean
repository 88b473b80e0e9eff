import CodeNav.Proofs.Server.Addresses

/-!
# Paths relative to the checkout

A place in a document is shown with the path of the document below one of the spellings of the checkout. The
path is what the address decodes to. Dots in an address are gone when it has been read, but a slash may be
encoded, and then a path may go up again below the checkout. Such a path is shown by its names alone, wherever
it leads.

## Main definitions

* `CalledBelow`: how a path is called that is below some roots
* `PlainSlashes`: no slash of an address is encoded

## Main statements

* `called_relativePath`: how a document is called
* `exists_called_outside`: a document that is called by a path that does not lead to it
-/

namespace CodeNav

namespace Path

variable {cs rs below : List Component} {c : Component} {p : Path} {names : List (List Char)}

theorem stripRoot?_eq_some_iff : stripRoot? rs cs = some below ↔ cs = rs ++ below := by
  constructor
  · intro h
    fun_induction stripRoot? rs cs with
    | case1 cs => exact Option.some.inj h
    | case2 => cases h
    | case3 rs r cs ih => rw [List.cons_append, ih h]
    | case4 => cases h
  · rintro rfl
    exact stripRoot?_append rs below

/-- Where a path goes up, it has a piece with two dots. -/
theorem dots_mem_splitOn {cs : List Char} (h : .parent ∈ componentsOf cs) :
    ['.', '.'] ∈ Text.splitOn '/' cs := by
  have hpieces {pieces : List (List Char)} (hsub : pieces ⊆ Text.splitOn '/' cs)
      (h : .parent ∈ pieces.filterMap Component.ofPiece?) : ['.', '.'] ∈ Text.splitOn '/' cs := by
    obtain ⟨piece, hpiece, hparent⟩ := List.mem_filterMap.mp h
    rcases ofPiece?_eq_some hparent (Text.notMem_of_mem_splitOn (hsub hpiece)) with ⟨-, rfl⟩ | ⟨hnormal, -⟩
    · exact hsub hpiece
    · cases hnormal
  unfold componentsOf at h
  split at h
  · exact hpieces (List.Subset.refl _) ((List.mem_cons.mp h).resolve_left nofun)
  · split at h
    · rename_i hsplit
      exact hpieces (hsplit ▸ List.subset_cons_self ..) ((List.mem_cons.mp h).resolve_left nofun)
    · exact hpieces (List.Subset.refl _) h

theorem exists_components_of_isAbsolute (habs : p.isAbsolute = true) :
    ∃ cs, p.components = .root :: (Text.splitOn '/' cs).filterMap Component.ofPiece? := by
  obtain ⟨cs, hcs⟩ : ∃ cs, p.text.toList = '/' :: cs := by
    simpa [isAbsolute, List.head?_eq_some_iff] using habs
  exact ⟨cs, by rw [components, hcs, componentsOf_slash]⟩

/-- What is below an absolute path is absolute. -/
theorem isAbsolute_of_below {root : Path} (habs : root.isAbsolute = true)
    (hp : p.components = root.components ++ below) : p.isAbsolute = true := by
  by_contra hrelative
  refine root_notMem_componentsOf (by simpa [isAbsolute] using hrelative) ?_
  change .root ∈ p.components
  obtain ⟨cs, hroot⟩ := exists_components_of_isAbsolute habs
  simp [hp, hroot]

/-- Below an absolute path there are names, and steps up. -/
theorem eq_parent_or_of_mem_below {root : Path} (habs : root.isAbsolute = true)
    (hp : p.components = root.components ++ below) (hc : c ∈ below) :
    c = .parent ∨ ∃ name, c = .normal name ∧ IsName name := by
  obtain ⟨cs, hcomponents⟩ := exists_components_of_isAbsolute (isAbsolute_of_below habs hp)
  obtain ⟨ds, hroot⟩ := exists_components_of_isAbsolute habs
  rw [hcomponents, hroot, List.cons_append] at hp
  have hmem : c ∈ (Text.splitOn '/' cs).filterMap Component.ofPiece? := by
    rw [(List.cons.inj hp).2]
    exact List.mem_append_right _ hc
  obtain ⟨piece, hpiece, hc⟩ := List.mem_filterMap.mp hmem
  rcases ofPiece?_eq_some hc (Text.notMem_of_mem_splitOn hpiece) with ⟨hc, -⟩ | ⟨hc, hname⟩
  · exact Or.inl hc
  · exact Or.inr ⟨piece, hc, hname⟩

/-- Names with slashes between them, joined to a path, lead down. -/
theorem components_join_names (habs : p.isAbsolute = true) (hne : names ≠ [])
    (hnames : ∀ name ∈ names, IsName name) :
    (p.join (String.ofList (Text.joinWith '/' names))).components = p.components ++ names.map .normal := by
  have hp : p.text.toList ≠ [] := by
    intro hnil
    simp [isAbsolute, hnil] at habs
  have hsplit := Text.splitOn_joinWith hne fun name hname ↦ (hnames name hname).slash
  have hhead : (Text.joinWith '/' names).head? ≠ some '/' := by
    obtain ⟨first, rest, rfl⟩ := List.exists_cons_of_ne_nil hne
    have hfirst := hnames first List.mem_cons_self
    obtain ⟨d, ds, rfl⟩ := List.exists_cons_of_ne_nil hfirst.ne_nil
    have hd : d ≠ '/' := fun heq ↦ hfirst.slash (heq ▸ List.mem_cons_self)
    cases rest <;> simpa [Text.joinWith] using hd
  rw [components, join, String.toList_ofList, String.toList_ofList,
    componentsOf_joinChars_of_ne_nil hp hhead, hsplit, filterMap_ofPiece? hnames, components]

end Path

/-! ### What an address decodes to -/

namespace Percent

variable {cs item : List Char} {items : List (List Char)} {d : Char} {x : Nat}

theorem toNat_of_hexValue? (h : hexValue? d = some x) : d.toNat < 0x80 := by
  simp only [hexValue?, toNat_le_iff] at h
  split_ifs at h with h9 hf hF
  · exact Nat.lt_of_le_of_lt h9.2 (by decide)
  · exact Nat.lt_of_le_of_lt hf.2 (by decide)
  · exact Nat.lt_of_le_of_lt hF.2 (by decide)

/-- The digits of the byte of a dot, in either case. -/
theorem lower_of_hexValue? (h : hexValue? d = some x) :
    x < 16 ∧ (x = 2 → Url.lower d = '2') ∧ (x = 14 → Url.lower d = 'e') := by
  have hall := of_ascii (p := fun _ ↦ true)
    (q := fun d ↦ (hexValue? d).all fun x ↦
      x < 16 && (x ≠ 2 || Url.lower d = '2') && (x ≠ 14 || Url.lower d = 'e'))
    (by decide +kernel) (toNat_of_hexValue? h) rfl
  simpa [h, ← imp_iff_not_or, and_assoc] using hall

/-- A dot is written as it is, or encoded. -/
theorem exists_of_decode_eq_dot {bs : List UInt8} (h : decode cs = 0x2E :: bs) :
    ∃ rest, decode rest = bs ∧ (cs.map Url.lower = '.' :: rest.map Url.lower ∨
      cs.map Url.lower = '%' :: '2' :: 'e' :: rest.map Url.lower) := by
  have hchar {c : Char} {rest : List Char} (hc : String.utf8EncodeChar c ++ decode rest = 0x2E :: bs) :
      c = '.' ∧ decode rest = bs := by
    obtain ⟨b, more, hbytes⟩ := List.exists_cons_of_ne_nil (String.utf8EncodeChar_ne_nil (c := c))
    rw [hbytes, List.cons_append] at hc
    obtain ⟨rfl, htail⟩ := List.cons.inj hc
    obtain rfl := Url.eq_dot_of_utf8EncodeChar hbytes
    obtain rfl : more = [] := (List.cons.inj hbytes).2.symm
    exact ⟨rfl, htail⟩
  unfold decode at h
  split at h
  · cases h
  · rename_i a b rest
    split at h
    · rename_i x y hx hy
      obtain ⟨hbyte, hrest⟩ := List.cons.inj h
      obtain ⟨hx16, hx2, -⟩ := lower_of_hexValue? hx
      obtain ⟨hy16, -, hy14⟩ := lower_of_hexValue? hy
      have hvalue : 16 * x + y = 46 := by
        have hnat := congrArg UInt8.toNat hbyte
        rw [UInt8.toNat_ofNat', Nat.mod_eq_of_lt (by omega)] at hnat
        exact hnat
      have hpercent : Url.lower '%' = '%' := by decide
      refine ⟨rest, hrest, Or.inr ?_⟩
      rw [List.map_cons, List.map_cons, List.map_cons, hpercent, hx2 (by omega), hy14 (by omega)]
    · simp at h
  · rename_i c rest _
    obtain ⟨rfl, hrest⟩ := hchar h
    exact ⟨rest, hrest, Or.inl rfl⟩

theorem eq_nil_of_decode (h : decode cs = []) : cs = [] := by
  unfold decode at h
  split at h
  · rfl
  · split at h <;> cases h
  · rename_i c rest _
    exact absurd (List.append_eq_nil_iff.mp h).1 String.utf8EncodeChar_ne_nil

/-- What decodes to two dots is written like two dots. -/
theorem isDoubleDot_of_decode (h : decode item = [0x2E, 0x2E]) : Url.isDoubleDot item = true := by
  obtain ⟨rest, hrest, hfirst⟩ := exists_of_decode_eq_dot h
  obtain ⟨rest', hrest', hsecond⟩ := exists_of_decode_eq_dot hrest
  obtain rfl := eq_nil_of_decode hrest'
  rcases hfirst with hfirst | hfirst <;> rcases hsecond with hsecond | hsecond <;>
    simp [Url.isDoubleDot, hfirst, hsecond]

/-- Segments that each begin with a slash are joined by slashes. -/
theorem intercalate_decode (first : List UInt8) (items : List (List Char)) :
    first ++ items.flatMap (fun item ↦ 0x2F :: decode item) =
      [0x2F].intercalate (first :: items.map decode) := by
  induction items generalizing first with
  | nil => simp
  | cons item items ih =>
    rw [List.flatMap_cons, List.map_cons, List.intercalate_cons_cons, ← ih, List.cons_append,
      List.append_assoc, List.singleton_append]

end Percent

theorem Text.utf8Bytes_joinWith (pieces : List (List Char)) :
    Text.utf8Bytes (Text.joinWith '/' pieces) = [0x2F].intercalate (pieces.map Text.utf8Bytes) := by
  fun_induction Text.joinWith '/' pieces with
  | case1 => rfl
  | case2 p => simp
  | case3 p q rest ih =>
    have hslash : Text.utf8Bytes ('/' :: Text.joinWith '/' (q :: rest)) =
        [0x2F] ++ Text.utf8Bytes (Text.joinWith '/' (q :: rest)) := rfl
    rw [Text.utf8Bytes_append, hslash, ih]
    simp only [List.map_cons, List.intercalate_cons_cons, List.append_assoc]

theorem Url.filePath?_eq_some {u : Url} {bytes : List UInt8} (h : u.filePath? = some bytes) :
    ∃ items : List (List Char), (∀ item ∈ items, item ∈ u.segments ∨ item = []) ∧
      bytes = items.flatMap fun item ↦ 0x2F :: Percent.decode item := by
  simp only [Url.filePath?] at h
  split at h
  · split at h
    · cases h
    · rename_i items hroute
      have hsegments : u.segments = items := by rw [Url.segments, hroute]
      have hself : ∀ item ∈ items, item ∈ u.segments ∨ item = [] := fun item hitem ↦
        Or.inl (hsegments ▸ hitem)
      split at h
      · split at h
        · refine ⟨items ++ [[]], fun item hitem ↦ ?_, ?_⟩
          · rcases List.mem_append.mp hitem with hitem | hitem
            · exact hself item hitem
            · exact Or.inr (List.mem_singleton.mp hitem)
          · rw [← Option.some.inj h, List.flatMap_append, List.flatMap_singleton, Percent.decode]
        · exact ⟨items, hself, (Option.some.inj h).symm⟩
      · exact ⟨items, hself, (Option.some.inj h).symm⟩
  · cases h

/-- Cut at its slashes, a text has a piece for each segment, if these have no slashes. -/
theorem Percent.map_splitOn_of_flatMap {cs : List Char} {items : List (List Char)}
    (h : Text.utf8Bytes cs = items.flatMap fun item ↦ 0x2F :: decode item)
    (hslash : ∀ item ∈ items, 0x2F ∉ decode item) :
    (Text.splitOn '/' cs).map Text.utf8Bytes = [] :: items.map decode := by
  have hitems : ∀ l ∈ [] :: items.map decode, (0x2F : UInt8) ∉ l := by
    intro l hl
    rcases List.mem_cons.mp hl with rfl | hl
    · exact List.not_mem_nil
    · obtain ⟨item, hitem, rfl⟩ := List.mem_map.mp hl
      exact hslash item hitem
  have hpieces : ∀ l ∈ (Text.splitOn '/' cs).map Text.utf8Bytes, (0x2F : UInt8) ∉ l := by
    intro l hl
    obtain ⟨piece, hpiece, rfl⟩ := List.mem_map.mp hl
    exact mt (Text.mem_utf8Bytes_iff (c := '/') (by decide)).mp (Text.notMem_of_mem_splitOn hpiece)
  have hne : (Text.splitOn '/' cs).map Text.utf8Bytes ≠ [] := by
    simpa using Text.splitOn_ne_nil '/' cs
  rw [← List.splitOn_intercalate 0x2F hpieces hne, ← Text.utf8Bytes_joinWith, Text.joinWith_splitOn, h,
    ← List.splitOn_intercalate 0x2F hitems (List.cons_ne_nil _ _), ← intercalate_decode, List.nil_append]

/-! ### How a document is called -/

variable {uri : String} {path : Path} {roots : List Path}

/-- How a path is called below some roots. -/
structure CalledBelow (roots : List Path) (path : Path) (r : String) : Prop where
  /-- A path that is below none of the roots has no name. -/
  outside : (∀ root ∈ roots, ∀ below, path.components ≠ root.components ++ below) → r = ""
  /-- Otherwise it has the names that lead to it from the first root that it is below. -/
  first : ∀ before root after below, roots = before ++ root :: after →
    (∀ other ∈ before, ∀ rest, path.components ≠ other.components ++ rest) →
    path.components = root.components ++ below →
    r = String.ofList (Text.joinWith '/' (below.filterMap Path.Component.name?))
  /-- What it is called has no empty pieces and no dots. Unless the path goes up below its root, it is called
  by all that follows the root, and joined to the root leads to the path. -/
  leads : r ≠ "" → ∃ root ∈ roots, ∃ below, path.components = root.components ++ below ∧
    (∀ piece ∈ Text.splitOn '/' r.toList, Path.IsName piece) ∧
    below.filterMap Path.Component.name? = Text.splitOn '/' r.toList ∧
    (.parent ∉ below →
      path.components = root.components ++ (Text.splitOn '/' r.toList).map .normal ∧
        (root.join r).components = path.components)

/-- No slash is encoded in the segments of an address. -/
def PlainSlashes (uri : String) : Prop :=
  ∀ u, Url.parse uri = .ok u → ∀ item ∈ u.segments, 0x2F ∉ Percent.decode item

/-- The names of a path below its root. -/
theorem relativePath_eq (h : uriPath? uri = some path) (roots : List Path) :
    relativePath uri roots = String.ofList
      ((belowRoot? (roots.map Path.components) path.components).elim [] fun below ↦
        Text.joinWith '/' (below.filterMap Path.Component.name?)) := by
  simp only [uriPath?, Option.map_eq_some_iff, Option.bind_eq_some_iff] at h
  obtain ⟨text, ⟨bytes, hbytes, htext⟩, rfl⟩ := h
  simp only [relativePath, hbytes, htext]
  rfl

theorem belowRoot?_eq_none (h : ∀ root ∈ roots, ∀ below, path.components ≠ root.components ++ below) :
    belowRoot? (roots.map Path.components) path.components = none := by
  rw [belowRoot?, List.findSome?_eq_none_iff]
  intro components hcomponents
  obtain ⟨root, hroot, rfl⟩ := List.mem_map.mp hcomponents
  rw [Option.eq_none_iff_forall_ne_some]
  exact fun below hbelow ↦ h root hroot below (Path.stripRoot?_eq_some_iff.mp hbelow)

theorem belowRoot?_eq_some_first {before after : List Path} {root : Path} {below : List Path.Component}
    (hroots : roots = before ++ root :: after)
    (hbefore : ∀ other ∈ before, ∀ rest, path.components ≠ other.components ++ rest)
    (hroot : path.components = root.components ++ below) :
    belowRoot? (roots.map Path.components) path.components = some below := by
  have hnone : belowRoot? (before.map Path.components) path.components = none := belowRoot?_eq_none hbefore
  rw [belowRoot?] at hnone
  rw [belowRoot?, hroots, List.map_append, List.findSome?_append, hnone, Option.none_or, List.map_cons,
    List.findSome?_cons, Path.stripRoot?_eq_some_iff.mpr hroot]

/-- Only what is encoded can go up. -/
theorem parent_notMem_components (h : uriPath? uri = some path) (hplain : PlainSlashes uri) :
    .parent ∉ path.components := by
  simp only [uriPath?, uriBytes?, Option.map_eq_some_iff, Option.bind_eq_some_iff] at h
  obtain ⟨text, ⟨bytes, ⟨u, hu, hbytes⟩, htext⟩, rfl⟩ := h
  have hparse : Url.parse uri = .ok u := by
    cases hparse : Url.parse uri <;> simp_all [Except.toOption]
  obtain rfl := Text.utf8Text?_eq_some_iff.mp htext
  obtain ⟨items, hitems, hjoined⟩ := Url.filePath?_eq_some hbytes
  have hslash : ∀ item ∈ items, 0x2F ∉ Percent.decode item := by
    intro item hitem
    rcases hitems item hitem with hitem | rfl
    · exact hplain u hparse item hitem
    · simp [Percent.decode]
  intro hparent
  have hdots : Text.utf8Bytes ['.', '.'] ∈ (Text.splitOn '/' text.toList).map Text.utf8Bytes :=
    List.mem_map_of_mem (Path.dots_mem_splitOn hparent)
  rw [Percent.map_splitOn_of_flatMap hjoined hslash] at hdots
  obtain ⟨item, hitem, hdecode⟩ := List.mem_map.mp ((List.mem_cons.mp hdots).resolve_left (by decide))
  have hdouble := Percent.isDoubleDot_of_decode hdecode
  rcases hitems item hitem with hitem | rfl
  · rw [((Url.isWritten_of_parse hparse).segments item hitem).double] at hdouble
    cases hdouble
  · cases hdouble

/-- What follows an absolute root is names, unless it goes up. -/
theorem leads_of_below {root : Path} {below : List Path.Component} {r : String}
    (habs : root.isAbsolute = true) (hpath : path.components = root.components ++ below)
    (hr : r = String.ofList (Text.joinWith '/' (below.filterMap Path.Component.name?))) (hne : r ≠ "") :
    (∀ piece ∈ Text.splitOn '/' r.toList, Path.IsName piece) ∧
      below.filterMap Path.Component.name? = Text.splitOn '/' r.toList ∧
      (.parent ∉ below → path.components = root.components ++ (Text.splitOn '/' r.toList).map .normal ∧
        (root.join r).components = path.components) := by
  generalize hnames : below.filterMap Path.Component.name? = names at hr
  have hmember {c : Path.Component} (hc : c ∈ below) :
      c = .parent ∨ ∃ name, c = .normal name ∧ Path.IsName name :=
    Path.eq_parent_or_of_mem_below habs hpath hc
  have hall : ∀ name ∈ names, Path.IsName name := by
    intro name hname
    rw [← hnames] at hname
    obtain ⟨c, hc, hname⟩ := List.mem_filterMap.mp hname
    rcases hmember hc with rfl | ⟨name', rfl, hisName⟩
    · cases hname
    · obtain rfl := Option.some.inj hname
      exact hisName
  have hnil : names ≠ [] := by
    rintro rfl
    exact hne hr
  have hsplit : Text.splitOn '/' r.toList = names := by
    rw [hr, String.toList_ofList, Text.splitOn_joinWith hnil fun name hname ↦ (hall name hname).slash]
  rw [hsplit]
  refine ⟨hall, rfl, fun hup ↦ ?_⟩
  have hbelow : below = names.map .normal := by
    rw [← hnames, Path.map_normal_filterMap_name?]
    intro c hc
    rcases hmember hc with rfl | ⟨name, rfl, -⟩
    · exact absurd hc hup
    · exact ⟨name, rfl⟩
  exact ⟨hbelow ▸ hpath, by rw [hr, Path.components_join_names habs hnil hall, hpath, hbelow]⟩

/-- An address that names no file is called nothing. -/
theorem relativePath_of_none (h : uriBytes? uri = none) (roots : List Path) : relativePath uri roots = "" := by
  simp only [relativePath, h]

theorem calledBelow_of_uriPath (h : uriPath? uri = some path) (habs : ∀ root ∈ roots, root.isAbsolute = true) :
    CalledBelow roots path (relativePath uri roots) := by
  have heq := relativePath_eq h roots
  refine ⟨fun houtside ↦ ?_, fun before root after below hroots hbefore hroot ↦ ?_, fun hne ↦ ?_⟩
  · rw [heq, belowRoot?_eq_none houtside]
    rfl
  · rw [heq, belowRoot?_eq_some_first hroots hbefore hroot]
    rfl
  · cases hbelow : belowRoot? (roots.map Path.components) path.components with
    | none =>
      rw [heq, hbelow] at hne
      exact absurd rfl hne
    | some below =>
      rw [hbelow, Option.elim_some] at heq
      obtain ⟨components, hcomponents, hstrip⟩ := List.exists_of_findSome?_eq_some hbelow
      obtain ⟨root, hroot, rfl⟩ := List.mem_map.mp hcomponents
      have hpath := Path.stripRoot?_eq_some_iff.mp hstrip
      exact ⟨root, hroot, below, hpath, leads_of_below (habs root hroot) hpath heq hne⟩

/-- A document is called by the names that lead to it from the first root that it is below, or not at all. If
no slash is encoded in its address, it never goes up below the root, and what it is called leads to it. An
address that names no file is called nothing. -/
theorem called_relativePath (uri : String) (habs : ∀ root ∈ roots, root.isAbsolute = true) :
    (uriBytes? uri = none → relativePath uri roots = "") ∧
      ∀ path, uriPath? uri = some path → CalledBelow roots path (relativePath uri roots) ∧
        (PlainSlashes uri → .parent ∉ path.components) :=
  ⟨fun hnone ↦ relativePath_of_none hnone roots, fun _ hpath ↦
    ⟨calledBelow_of_uriPath hpath habs, parent_notMem_components hpath⟩⟩

/-- Dots that are encoded, a slash too many and a name with a blank, below the second root. -/
theorem called_second :
    let roots : List Path := [⟨"/w"⟩, ⟨"/v//r/"⟩]
    let uri := "file:///v/r/x/.%2E/a%20b//c"
    (∀ root ∈ roots, root.isAbsolute = true) ∧ uriPath? uri = some ⟨"/v/r/a b//c"⟩ ∧ PlainSlashes uri ∧
      relativePath uri roots = "a b/c" ∧
      (uriBytes? uri = none → relativePath uri roots = "") ∧
      ∀ path, uriPath? uri = some path → CalledBelow roots path (relativePath uri roots) ∧
        (PlainSlashes uri → .parent ∉ path.components) := by
  intro roots uri
  have habs : ∀ root ∈ roots, root.isAbsolute = true := by decide
  have hplain : PlainSlashes uri := by
    have hall : (Url.parse uri).toOption.all (fun u ↦
        u.segments.all fun item ↦ !(Percent.decode item).contains 0x2F) = true := by decide +kernel
    intro u hu item hitem
    rw [hu] at hall
    simpa using List.all_eq_true.mp hall item hitem
  exact ⟨habs, by decide +kernel, hplain, by decide +kernel, called_relativePath uri habs⟩

/-- A document outside the root is called by a path in it. -/
theorem exists_called_outside : ∃ (uri : String) (root path : Path), root.isAbsolute = true ∧
    uriPath? uri = some path ∧ path.components = root.components ++ [.normal ['a'], .parent, .parent,
      .normal ['e', 't', 'c']] ∧
    relativePath uri [root] = "a/etc" ∧ (root.join "a/etc").components ≠ path.components :=
  ⟨"file:///w/a%2F..%2F..%2Fetc", ⟨"/w"⟩, ⟨"/w/a/../../etc"⟩, by decide +kernel⟩

end CodeNav
