import CodeNav.Proofs.Url.Files
import CodeNav.Server.Location

/-!
# Addresses of documents

A caller names a document by any path text. Unless there is nothing in it but slashes, or it goes up
somewhere, the document lies in the checkout where the names in the text lead. Its address, which is
what the server is told, leads back to the same place, and relative to the checkout it is called by
the same names. Only a letter with a bar could come back as another name.

## Main statements

* `Session.documentFile_eq`: which paths are refused
* `Session.document_addressed`: where a document lies, and where its address leads
-/

namespace CodeNav

namespace Path

variable {cs : List Char}

theorem root_notMem_componentsOf (h : cs.head? ≠ some '/') : .root ∉ componentsOf cs := by
  have hpieces (pieces : List (List Char)) : .root ∉ pieces.filterMap Component.ofPiece? := by
    intro hroot
    obtain ⟨piece, -, hpiece⟩ := List.mem_filterMap.mp hroot
    simp only [Component.ofPiece?] at hpiece
    split at hpiece
    · cases hpiece
    · split at hpiece <;> cases hpiece
  rw [componentsOf_of_head?_ne h]
  unfold componentsOfPieces
  split
  · simpa using hpieces _
  · exact hpieces _

/-- Behind its leading slashes a path leaves its folder only by going up. -/
theorem all_staysInside_eq_false_iff (h : cs.head? ≠ some '/') :
    (componentsOf cs).all Component.staysInside = false ↔ .parent ∈ componentsOf cs := by
  have hroot := root_notMem_componentsOf h
  rw [List.all_eq_false]
  constructor
  · rintro ⟨c, hc, hleaves⟩
    cases c with
    | parent => exact hc
    | root => exact absurd hc hroot
    | current => exact absurd rfl hleaves
    | normal name => exact absurd rfl hleaves
  · exact fun hparent ↦ ⟨_, hparent, by decide⟩

end Path

namespace Session

open CodeNav.Path (namesOf)

variable {s : Session} {path uri : String} {file : Path} {e : SessionError}

/-- The text of a path behind its leading slashes. -/
def behindSlashes (path : String) : List Char := path.toList.dropWhile (· = '/')

theorem head?_behindSlashes (path : String) : (behindSlashes path).head? ≠ some '/' := by
  intro hhead
  have hfirst := List.head?_dropWhile_not (· = '/') path.toList
  rw [behindSlashes] at hhead
  rw [hhead] at hfirst
  simp at hfirst

theorem documentFile_eq (s : Session) (path : String) : s.documentFile path =
    if behindSlashes path = [] ∨ .parent ∈ Path.componentsOf (behindSlashes path) then
      .error (.invalidPath path)
    else .ok (s.checkout.join (String.ofList (behindSlashes path))) := by
  have hinside := Path.all_staysInside_eq_false_iff (head?_behindSlashes path)
  simp only [← hinside]
  unfold documentFile
  rw [List.all_congr (q := Path.Component.staysInside) rfl fun c ↦ by cases c <;> rfl]
  rfl

/-- What the address of a document leads back to. -/
structure Addressed (s : Session) (path : String) (file : Path) (uri : String) : Prop where
  /-- The document lies where the names of the path lead from the checkout. -/
  below : file.components = s.checkout.components ++ (namesOf path.toList).map .normal
  address : s.documentUri path = .ok uri
  /-- The address names the file. -/
  back : ∃ file', uriPath? uri = some file' ∧ file'.components = file.components
  /-- In the checkout the document has the names of the path. -/
  relative : relativePath uri [s.checkout] = String.ofList (Text.joinWith '/' (namesOf path.toList))

theorem joinedNames_map_normal (names : List (List Char)) :
    joinedNames (names.map .normal) = Text.joinWith '/' names := by
  rw [joinedNames, List.filterMap_map]
  exact congrArg _ List.filterMap_some

theorem addressed_of_documentFile (habs : s.checkout.isAbsolute = true)
    (hup : .parent ∉ s.checkout.components)
    (hbar : ∀ name, name ∈ namesOf s.checkout.text.toList ∨ name ∈ namesOf path.toList →
      Url.isBarred name = false) (h : s.documentFile path = .ok file) :
    ∃ uri, s.Addressed path file uri := by
  have hfile := components_of_documentFile habs h
  obtain ⟨names, hcomponents, hnames, hbarred⟩ : ∃ names : List (List Char),
      file.components = .root :: names.map .normal ∧ (∀ name ∈ names, Path.IsName name) ∧
        ∀ name ∈ names.head?, Url.isBarred name = false := by
    refine ⟨namesOf s.checkout.text.toList ++ namesOf path.toList, ?_, fun name hname ↦ ?_,
      fun name hname ↦ hbar name (List.mem_append.mp (List.mem_of_mem_head? hname))⟩
    · rw [hfile, Path.components_eq_root_cons habs hup, List.map_append, List.cons_append]
    · rcases List.mem_append.mp hname with hname | hname <;> exact Path.isName_of_mem_namesOf hname
  obtain ⟨cs, hbytes, hcs⟩ := Url.filePath?_ofSegments hnames
  have huri : uriBytes? (Url.ofSegments (Url.segmentsOfNames names)).text = some (Text.utf8Bytes cs) := by
    rw [uriBytes?, Url.parse_text_ofSegments hnames hbarred]
    exact hbytes
  have htext : Path.components ⟨String.ofList cs⟩ = file.components := by
    rw [Path.components, String.toList_ofList, hcs, hcomponents]
  refine ⟨(Url.ofSegments (Url.segmentsOfNames names)).text, hfile, ?_,
    ⟨⟨String.ofList cs⟩, ?_, htext⟩, ?_⟩
  · have hof := Url.ofFile?_eq ((isAbsolute_of_documentFile h).trans habs) hcomponents
    rw [documentUri, h]
    simp only [hof]
  · simp [uriPath?, huri, Text.utf8Text?_utf8Bytes]
  · have hbelow : belowRoot? [s.checkout.components] file.components =
        some ((namesOf path.toList).map .normal) := by
      rw [belowRoot?, List.findSome?_cons, hfile, Path.stripRoot?_append]
    simp only [relativePath, huri, Text.utf8Text?_utf8Bytes, htext, List.map_cons, List.map_nil, hbelow,
      Option.elim_some, joinedNames_map_normal]

/-- The path of a document is refused just when there is nothing behind its leading slashes or it goes
up. Otherwise the document lies below the checkout where its names lead, and its address leads back to
it, by the same path. -/
theorem document_addressed (s : Session) (path : String) (habs : s.checkout.isAbsolute = true)
    (hup : .parent ∉ s.checkout.components)
    (hbar : ∀ name, name ∈ namesOf s.checkout.text.toList ∨ name ∈ namesOf path.toList →
      Url.isBarred name = false) :
    let refused := behindSlashes path = [] ∨ .parent ∈ Path.componentsOf (behindSlashes path)
    (s.documentFile path = .error (.invalidPath path) ↔ refused) ∧
      (¬ refused → ∃ file uri, s.documentFile path = .ok file ∧ s.Addressed path file uri) := by
  intro refused
  have heq := documentFile_eq s path
  by_cases hrefused : refused
  · rw [if_pos hrefused] at heq
    exact ⟨iff_of_true heq hrefused, fun h ↦ absurd hrefused h⟩
  · rw [if_neg hrefused] at heq
    refine ⟨iff_of_false (by simp [heq]) hrefused, fun _ ↦ ?_⟩
    obtain ⟨uri, huri⟩ := addressed_of_documentFile habs hup hbar heq
    exact ⟨_, uri, heq, huri⟩

/-- Names with signs that mean something in addresses. -/
theorem document_addressed_signs :
    let s := Session.create default ⟨"/c//a%2Fb/./r"⟩ default
    let path := "//a b/%2e%2e/./é\\\t/C|x"
    s.checkout.isAbsolute = true ∧ .parent ∉ s.checkout.components ∧
      (∀ name, name ∈ namesOf s.checkout.text.toList ∨ name ∈ namesOf path.toList →
        Url.isBarred name = false) ∧
      namesOf path.toList =
        ["a b".toList, "%2e%2e".toList, "é\\\t".toList, "C|x".toList] ∧
      ∃ file uri, s.documentFile path = .ok file ∧ s.Addressed path file uri := by
  intro s path
  have habs : s.checkout.isAbsolute = true := by decide
  have hup : .parent ∉ s.checkout.components := by decide
  have hbar (name : List Char)
      (h : name ∈ namesOf s.checkout.text.toList ∨ name ∈ namesOf path.toList) :
      Url.isBarred name = false := by
    have hall : ∀ name ∈ namesOf s.checkout.text.toList ++ namesOf path.toList,
        Url.isBarred name = false := by decide
    exact hall name (List.mem_append.mpr h)
  exact ⟨habs, hup, hbar, by decide, (document_addressed s path habs hup hbar).2 (by decide)⟩

end Session

end CodeNav
