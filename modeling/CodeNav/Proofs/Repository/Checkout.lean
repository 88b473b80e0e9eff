import CodeNav.Proofs.Text.Split
import CodeNav.Repository.Address

/-!
# Where checkouts are

The folder of a checkout is the root, the host and one folder for each piece of the slug. A *name* is a
piece that leads one folder down; when host and pieces are names, the folder lies strictly below that
of the host, and belongs to one repository only. Slugs are normalized so that all pieces are names:
pieces of dots are left out. But the ending of clone addresses is taken off the last piece afterwards,
and what is left of `..git` and `...git` is a piece of dots again. No other complete key leads
elsewhere.

## Main definitions

* `Path.IsName`: a piece of a path that leads one folder down
* `RepositoryKey.Located`: the folder of a repository lies where it should
* `RepositoryKey.HidesDots`: a slug whose last piece is of dots but for the ending
* `RepositoryAddress.slugOf`: the slug that the path of an address spells

## Main statements

* `Path.components_join`: a name leads one folder down
* `RepositoryKey.located_iff`: a complete key leads elsewhere just when its slug hides dots
* `RepositoryKey.Located.below_host`: a folder lies below that of the host
* `RepositoryKey.Located.eq_of_same`: a folder belongs to one repository
* `RepositoryAddress.key_of_parse`: where the key of an address comes from
-/

namespace CodeNav

/-! ### Going down -/

namespace Path

/-- A piece of a path that leads one folder down. -/
structure IsName (piece : List Char) : Prop where
  ne_nil : piece ≠ []
  slash : '/' ∉ piece
  ne_dot : piece ≠ ['.']
  ne_dots : piece ≠ ['.', '.']

/-- The components that pieces give which do not begin at the root. -/
def componentsOfPieces : List (List Char) → List Component
  | ['.'] :: rest => .current :: rest.filterMap Component.ofPiece?
  | pieces => pieces.filterMap Component.ofPiece?

/-- The first piece alone decides how pieces are read. -/
theorem componentsOfPieces_append {ps : List (List Char)} (hps : ps ≠ []) (qs : List (List Char)) :
    componentsOfPieces (ps ++ qs) = componentsOfPieces ps ++ qs.filterMap Component.ofPiece? := by
  obtain ⟨p, rest, rfl⟩ := List.exists_cons_of_ne_nil hps
  by_cases hp : p = ['.']
  · simp [componentsOfPieces, hp]
  · simp [componentsOfPieces, hp, ← List.filterMap_append]

theorem componentsOf_slash (cs : List Char) :
    componentsOf ('/' :: cs) = .root :: (Text.splitOn '/' cs).filterMap Component.ofPiece? := by
  simp [componentsOf, Text.splitOn, Component.ofPiece?]

theorem componentsOf_of_head?_ne {cs : List Char} (h : cs.head? ≠ some '/') :
    componentsOf cs = componentsOfPieces (Text.splitOn '/' cs) := by
  cases cs with
  | nil => rfl
  | cons c cs =>
    have hc : c ≠ '/' := by simpa using h
    rw [componentsOf]
    · rfl
    · exact fun _ heq ↦ hc (List.cons.inj heq).1

/-- What follows a slash adds its pieces. -/
theorem componentsOf_append_slash {p : List Char} (hp : p ≠ []) (q : List Char) :
    componentsOf (p ++ '/' :: q) =
      componentsOf p ++ (Text.splitOn '/' q).filterMap Component.ofPiece? := by
  obtain ⟨c, cs, rfl⟩ := List.exists_cons_of_ne_nil hp
  by_cases hc : c = '/'
  · rw [hc, List.cons_append, componentsOf_slash, componentsOf_slash, Text.splitOn_append_cons,
      List.filterMap_append, List.cons_append]
  · have hhead (ds : List Char) : (c :: ds).head? ≠ some '/' := by simpa using hc
    rw [List.cons_append, componentsOf_of_head?_ne (hhead _), componentsOf_of_head?_ne (hhead _),
      ← List.cons_append, Text.splitOn_append_cons,
      componentsOfPieces_append (Text.splitOn_ne_nil _ _)]

theorem IsName.ofPiece?_eq {q : List Char} (hq : IsName q) : Component.ofPiece? q = some (.normal q) := by
  simp [Component.ofPiece?, hq.ne_nil, hq.ne_dot, hq.ne_dots]

/-- Names are the components that they give. -/
theorem filterMap_ofPiece? {names : List (List Char)} (h : ∀ name ∈ names, IsName name) :
    names.filterMap Component.ofPiece? = names.map .normal := by
  rw [← List.filterMap_eq_map]
  exact List.filterMap_congr fun name hname ↦ (h name hname).ofPiece?_eq

theorem IsName.filterMap_splitOn {q : List Char} (hq : IsName q) :
    (Text.splitOn '/' q).filterMap Component.ofPiece? = [.normal q] := by
  rw [Text.splitOn_of_notMem hq.slash, List.filterMap_cons_some hq.ofPiece?_eq, List.filterMap_nil]

theorem IsName.head?_ne {q : List Char} (hq : IsName q) : q.head? ≠ some '/' :=
  fun h ↦ hq.slash (List.mem_of_mem_head? h)

/-- What is joined to a path adds its pieces. -/
theorem componentsOf_joinChars_of_ne_nil {p q : List Char} (hp : p ≠ []) (hq : q.head? ≠ some '/') :
    componentsOf (joinChars p q) =
      componentsOf p ++ (Text.splitOn '/' q).filterMap Component.ofPiece? := by
  obtain ⟨p, c, rfl⟩ := (List.eq_nil_or_concat' p).resolve_left hp
  rw [joinChars, if_neg hq]
  by_cases hc : c = '/'
  -- A path that ends with a slash has the components of what stands before.
  · rw [hc, if_pos (Or.inr List.getLast?_concat), List.append_assoc, List.singleton_append]
    rcases List.eq_nil_or_concat' p with rfl | ⟨p, d, rfl⟩
    · exact componentsOf_slash q
    · have hne : p ++ [d] ≠ [] := by simp
      rw [componentsOf_append_slash hne, componentsOf_append_slash hne]
      simp [Text.splitOn, Component.ofPiece?]
  · have hne : p ++ [c] ≠ [] := by simp
    rw [if_neg (by simp [hc]), componentsOf_append_slash hne]

theorem componentsOf_joinChars (p : List Char) {q : List Char} (hq : IsName q) :
    componentsOf (joinChars p q) = componentsOf p ++ [.normal q] := by
  rcases eq_or_ne p [] with rfl | hp
  · have hone : componentsOfPieces [q] = [q].filterMap Component.ofPiece? := by
      simp [componentsOfPieces, hq.ne_dot]
    rw [joinChars, if_neg hq.head?_ne, if_pos (Or.inl rfl), List.nil_append,
      componentsOf_of_head?_ne hq.head?_ne, Text.splitOn_of_notMem hq.slash, hone,
      ← hq.filterMap_splitOn, Text.splitOn_of_notMem hq.slash]
    rfl
  · rw [componentsOf_joinChars_of_ne_nil hp hq.head?_ne, hq.filterMap_splitOn]

/-- A name leads one folder down. -/
theorem components_join (p : Path) {q : String} (hq : IsName q.toList) :
    (p.join q).components = p.components ++ [.normal q.toList] := by
  simp [components, join, componentsOf_joinChars _ hq]

/-- Names lead as many folders down. -/
theorem components_foldl {pieces : List (List Char)} (h : ∀ piece ∈ pieces, IsName piece)
    (p : Path) :
    (pieces.foldl (fun p piece ↦ p.join (String.ofList piece)) p).components =
      p.components ++ pieces.map .normal := by
  induction pieces generalizing p with
  | nil => simp
  | cons piece rest ih =>
    have hpiece : IsName (String.ofList piece).toList := by simpa using h piece List.mem_cons_self
    rw [List.foldl_cons, ih fun q hq ↦ h q (List.mem_cons_of_mem _ hq), components_join _ hpiece]
    simp

end Path

namespace RepositoryKey

open CodeNav.Path (IsName)

/-- Host and pieces of the slug, which together say where a checkout is. -/
def names (key : RepositoryKey) : List (List Char) :=
  key.resource.toList :: key.segments

/-- The folder of a repository lies strictly below that of its host, where its name says. -/
structure Located (key : RepositoryKey) (root : Path) : Prop where
  isName : ∀ piece ∈ key.names, IsName piece
  two_le : 2 ≤ key.segments.length
  components : (key.checkoutPath root).components = root.components ++ key.names.map .normal

variable {key a b : RepositoryKey} {root : Path} {cs : List Char} {resource slug : String}

theorem components_checkoutPath (h : ∀ piece ∈ key.names, IsName piece) (root : Path) :
    (key.checkoutPath root).components = root.components ++ key.names.map .normal := by
  have hresource : IsName key.resource.toList := h _ List.mem_cons_self
  rw [checkoutPath, Path.components_foldl fun piece hpiece ↦ h _ (List.mem_cons_of_mem _ hpiece),
    Path.components_join _ hresource]
  simp [names]

theorem located_iff_isName (hcomplete : key.isComplete = true) :
    key.Located root ↔ ∀ piece ∈ key.names, IsName piece := by
  have htwo : 2 ≤ key.segments.length := by simp_all [isComplete]
  exact ⟨Located.isName, fun h ↦ ⟨h, htwo, components_checkoutPath h root⟩⟩

/-- The folder of a repository is at least two folders below that of its host. -/
theorem Located.below_host (h : key.Located root) : ∃ pieces : List (List Char), 2 ≤ pieces.length ∧
    (key.checkoutPath root).components =
      (root.join key.resource).components ++ pieces.map .normal := by
  have hresource : IsName key.resource.toList := h.isName _ List.mem_cons_self
  refine ⟨key.segments, h.two_le, ?_⟩
  rw [h.components, Path.components_join _ hresource, names]
  simp

/-- A key is known by its host and pieces. -/
theorem eq_of_names_eq (h : a.names = b.names) : a = b := by
  obtain ⟨hresource, hsegments⟩ := List.cons.inj h
  have hslug (k : RepositoryKey) : Text.joinWith '/' k.segments = k.slug.toList :=
    Text.joinWith_splitOn ..
  have hslugs : a.slug.toList = b.slug.toList := by rw [← hslug a, ← hslug b, hsegments]
  obtain ⟨resource, slug⟩ := a
  exact congrArg₂ mk (String.toList_injective hresource) (String.toList_injective hslugs)

/-- A folder belongs to one repository. -/
theorem Located.eq_of_same (ha : a.Located root) (hb : b.Located root)
    (h : (a.checkoutPath root).same (b.checkoutPath root) = true) : a = b := by
  have heq : root.components ++ a.names.map .normal = root.components ++ b.names.map .normal := by
    rw [← ha.components, ← hb.components]
    exact of_decide_eq_true h
  have hinj : Function.Injective Path.Component.normal := fun _ _ ↦ Path.Component.normal.inj
  exact eq_of_names_eq (hinj.list_map (List.append_cancel_left heq))

/-! ### Normalized slugs -/

/-- The pieces of a slug that are not left out, the last one with its ending. -/
def keptPieces (cs : List Char) : List (List Char) :=
  (Text.splitOn '/' (Text.trim cs)).filter fun p => p ≠ [] && !isDots p

/-- The last piece of a slug is of dots but for the ending of clone addresses. -/
def HidesDots (slug : String) : Prop :=
  ∃ piece ∈ (keptPieces slug.toList).getLast?,
    piece = '.' :: gitSuffix ∨ piece = '.' :: '.' :: gitSuffix

instance : DecidablePred HidesDots := fun slug ↦
  inferInstanceAs (Decidable (∃ piece ∈ (keptPieces slug.toList).getLast?, _ ∨ _))

theorem isDots_eq_false {piece : List Char} :
    isDots piece = false ↔ piece ≠ ['.'] ∧ piece ≠ ['.', '.'] := by
  simp [isDots]

theorem isName_of_mem_keptPieces {piece : List Char} (h : piece ∈ keptPieces cs) :
    IsName piece := by
  obtain ⟨hmem, hkept⟩ := List.mem_filter.mp h
  simp only [Bool.and_eq_true, decide_eq_true_eq, Bool.not_eq_true', isDots_eq_false] at hkept
  exact ⟨hkept.1, Text.notMem_of_mem_splitOn hmem, hkept.2.1, hkept.2.2⟩

/-- The ending hides dots only in two names. -/
theorem isDots_stripSuffix {piece : List Char} (h : IsName piece) :
    isDots (Text.stripSuffix gitSuffix piece) = true ↔
      piece = '.' :: gitSuffix ∨ piece = '.' :: '.' :: gitSuffix := by
  constructor
  · intro hdots
    have hdots : Text.stripSuffix gitSuffix piece = ['.'] ∨
        Text.stripSuffix gitSuffix piece = ['.', '.'] := by simpa [isDots] using hdots
    rcases Text.stripSuffix_eq_or gitSuffix piece with hsame | hends
    · rw [hsame] at hdots
      exact (hdots.elim h.ne_dot h.ne_dots).elim
    · rcases hdots with hdot | hdots
      · exact Or.inl (by rwa [hdot] at hends)
      · exact Or.inr (by rwa [hdots] at hends)
  · rintro (rfl | rfl)
    · exact congrArg isDots (Text.stripSuffix_append ['.'] gitSuffix)
    · exact congrArg isDots (Text.stripSuffix_append ['.', '.'] gitSuffix)

theorem mapLast_concat {α : Type} (f : α → α) (l : List α) (x : α) :
    mapLast f (l ++ [x]) = l ++ [f x] := by
  induction l with
  | nil => rfl
  | cons y rest ih =>
    cases rest with
    | nil => rfl
    | cons z rest => exact congrArg (y :: ·) ih

/-- The pieces of a normalized slug. -/
theorem mem_slugPieces {piece : List Char} :
    piece ∈ slugPieces cs ↔ piece ∈ (keptPieces cs).dropLast ∨
      piece ≠ [] ∧ ∃ last ∈ (keptPieces cs).getLast?, piece = Text.stripSuffix gitSuffix last := by
  have hpieces : slugPieces cs =
      (mapLast (Text.stripSuffix gitSuffix) (keptPieces cs)).filter (· ≠ []) := rfl
  have hkept (p : List Char) (hp : p ∈ keptPieces cs) : p ≠ [] := (isName_of_mem_keptPieces hp).ne_nil
  rcases List.eq_nil_or_concat' (keptPieces cs) with hnil | ⟨rest, last, hconcat⟩
  · simp [hpieces, hnil, mapLast]
  · rw [hconcat] at hkept
    have hrest : piece ∈ rest → piece ≠ [] := fun h ↦ hkept piece (List.mem_append_left _ h)
    rw [hpieces, hconcat, mapLast_concat, List.mem_filter, List.dropLast_concat]
    simp only [List.mem_append, List.mem_singleton, List.getLast?_concat, Option.mem_def,
      Option.some.injEq, exists_eq_left', decide_eq_true_eq]
    tauto

theorem slash_notMem_of_mem_slugPieces {piece : List Char} (h : piece ∈ slugPieces cs) :
    '/' ∉ piece := by
  rcases mem_slugPieces.mp h with hrest | ⟨-, last, hlast, rfl⟩
  · exact (isName_of_mem_keptPieces (List.dropLast_subset _ hrest)).slash
  · have hslash : '/' ∉ last := (isName_of_mem_keptPieces (List.mem_of_mem_getLast? hlast)).slash
    rcases Text.stripSuffix_eq_or gitSuffix last with hsame | hends
    · rwa [hsame]
    · exact fun hmem ↦ hslash (hends ▸ List.mem_append_left _ hmem)

/-- The names in a key that was normalized. -/
theorem names_normalize (h : (normalize resource slug).isComplete = true) :
    (normalize resource slug).names = normalizeResource resource.toList :: slugPieces slug.toList := by
  have hnames : (normalize resource slug).names = normalizeResource resource.toList ::
      Text.splitOn '/' (Text.joinWith '/' (slugPieces slug.toList)) := by
    simp [names, segments, normalize, normalizeSlug]
  have hlength : 3 ≤ (normalize resource slug).names.length := by simp_all [isComplete, names]
  have hne : slugPieces slug.toList ≠ [] := fun hnil ↦ by
    simp [hnames, hnil, Text.joinWith, Text.splitOn] at hlength
  rw [hnames, Text.splitOn_joinWith hne fun _ ↦ slash_notMem_of_mem_slugPieces]

theorem isName_normalizeResource (h : normalizeResource cs ≠ []) :
    IsName (normalizeResource cs) := by
  simp only [normalizeResource] at h ⊢
  split at h
  · rename_i host hfind
    cases hdots : isDots host with
    | true => simp [hdots] at h
    | false =>
      obtain ⟨hdot, hdots'⟩ := isDots_eq_false.mp hdots
      have hne : host ≠ [] := by simpa using List.find?_some hfind
      simpa [hfind, hdots] using
        IsName.mk hne (Text.notMem_of_mem_splitOn (List.mem_of_find?_eq_some hfind)) hdot hdots'
  · exact absurd rfl h

/-- A complete key leads elsewhere just when the slug that it was made of hides dots. -/
theorem located_iff (h : (normalize resource slug).isComplete = true) :
    (normalize resource slug).Located root ↔ ¬HidesDots slug := by
  rw [located_iff_isName h, names_normalize h]
  constructor
  · rintro hnames ⟨last, hlast, hends⟩
    have hlastName := isName_of_mem_keptPieces (List.mem_of_mem_getLast? hlast)
    have hdots := (isDots_stripSuffix hlastName).mpr hends
    have hmem : Text.stripSuffix gitSuffix last ∈ slugPieces slug.toList :=
      mem_slugPieces.mpr (Or.inr ⟨fun hnil ↦ by simp [hnil, isDots] at hdots, last, hlast, rfl⟩)
    have hname := hnames _ (List.mem_cons_of_mem _ hmem)
    simp [isDots_eq_false.mpr ⟨hname.ne_dot, hname.ne_dots⟩] at hdots
  · intro hhides piece hpiece
    rcases List.mem_cons.mp hpiece with heq | hmem
    · have hresource : normalizeResource resource.toList ≠ [] := by
        simp_all [isComplete, normalize]
      rw [heq]
      exact isName_normalizeResource hresource
    · have hslash := slash_notMem_of_mem_slugPieces hmem
      rcases mem_slugPieces.mp hmem with hrest | ⟨hne, last, hlast, rfl⟩
      · exact isName_of_mem_keptPieces (List.dropLast_subset _ hrest)
      · have hlastName := isName_of_mem_keptPieces (List.mem_of_mem_getLast? hlast)
        have hdots : isDots (Text.stripSuffix gitSuffix last) = false :=
          Bool.eq_false_iff.mpr fun hdots ↦
            hhides ⟨last, hlast, (isDots_stripSuffix hlastName).mp hdots⟩
        obtain ⟨hdot, hdots⟩ := isDots_eq_false.mp hdots
        exact ⟨hne, hslash, hdot, hdots⟩

end RepositoryKey

/-! ### Keys of addresses -/

namespace RepositoryAddress

variable {input : String} {url : Url} {pieces : List (List Char)} {address : RepositoryAddress}

/-- The slug that the path of an address spells. -/
def slugOf (url : Url) : String :=
  String.ofList (Text.joinWith '/' (segmentsOf url))

theorem ofSegments_eq_ok (h : ofSegments url pieces = .ok address) : ∃ host,
    url.hostText? = some host ∧
      address.key = .normalize (String.ofList host) (String.ofList (Text.joinWith '/' pieces)) ∧
      address.key.isComplete = true := by
  simp only [ofSegments] at h
  split at h
  · simp at h
  · rename_i host hhost
    split at h
    · rename_i hcomplete
      split at h
      · simp at h
      · obtain rfl := Except.ok.inj h
        exact ⟨host, hhost, rfl, hcomplete⟩
    · simp at h

/-- The key of an address is made of its host and of all of its path, and is complete. -/
theorem key_of_parse (h : parse input = .ok address) : ∃ url host,
    urlOf input = .ok url ∧ url.hostText? = some host ∧
      address.key = .normalize (String.ofList host) (slugOf url) ∧
      address.key.isComplete = true := by
  cases hurl : urlOf input with
  | error e => simp [parse, hurl, bind, Except.bind] at h
  | ok url =>
    simp only [parse, hurl, bind, Except.bind] at h
    split at h
    · simp at h
    · obtain ⟨host, hhost, hkey, hcomplete⟩ := ofSegments_eq_ok h
      exact ⟨url, host, rfl, hhost, hkey, hcomplete⟩

end RepositoryAddress

end CodeNav
