import CodeNav.Proofs.Server.Spellings
import CodeNav.Proofs.Text.Utf8
import CodeNav.Proofs.Url.Rereading
import CodeNav.Url.File

/-!
# Addresses of files are read again

The address of a file spells the names of its path with all characters encoded that mean something in
an address, the percent sign included. Read again it has the same segments, and these decode to the
bytes of the names. Only the first name may be taken for something else: a letter with a bar is
rewritten like a drive.

## Main statements

* `Percent.decode_encode`: decoding undoes encoding when percent signs are encoded
* `Path.components_eq_root_cons`: an absolute path that never goes up is its names
* `Url.parse_text_ofFile?`: the address of a file is read as it is written
* `Url.filePath?_ofFile?`: it names the path that it was made of
-/

namespace CodeNav

/-! ### Decoding -/

namespace Percent

variable {set : Char → Bool} {cs : List Char}

theorem hexValue?_upperHex {n : Nat} (h : n < 16) : hexValue? (upperHex n) = some n := by
  have hall : ∀ n < 16, hexValue? (upperHex n) = some n := by decide
  exact hall n h

theorem decode_encodeByte (b : UInt8) (rest : List Char) :
    decode (encodeByte b ++ rest) = b :: decode rest := by
  have hb := b.toNat_lt
  have hbyte : UInt8.ofNat (16 * (b.toNat / 16) + b.toNat % 16) = b := by
    rw [Nat.div_add_mod, UInt8.ofNat_toNat]
  have hhigh := hexValue?_upperHex (show b.toNat / 16 < 16 by omega)
  have hlow := hexValue?_upperHex (show b.toNat % 16 < 16 by omega)
  rw [encodeByte, List.cons_append, List.cons_append, List.cons_append, List.nil_append, decode]
  simp only [hhigh, hlow, hbyte]

theorem decode_flatMap_encodeByte (bs : List UInt8) (rest : List Char) :
    decode (bs.flatMap encodeByte ++ rest) = bs ++ decode rest := by
  induction bs with
  | nil => rfl
  | cons b bs ih => rw [List.flatMap_cons, List.append_assoc, decode_encodeByte, ih, List.cons_append]

theorem decode_cons_of_ne {c : Char} (hc : c ≠ '%') (rest : List Char) :
    decode (c :: rest) = String.utf8EncodeChar c ++ decode rest := by
  rw [decode]
  exact fun _ _ _ heq _ ↦ absurd heq hc

/-- Decoding undoes encoding when percent signs are encoded. -/
theorem decode_encode (hpercent : set '%' = true) (cs : List Char) :
    decode (encode set cs) = Text.utf8Bytes cs := by
  induction cs with
  | nil => rw [encode, List.flatMap_nil, decode, Text.utf8Bytes_nil]
  | cons c cs ih =>
    have hencode : encode set (c :: cs) = encodeChar set c ++ encode set cs := rfl
    rw [hencode, Text.utf8Bytes_cons, ← ih, encodeChar]
    split
    · rw [decode_flatMap_encodeByte]
    · rename_i hset
      refine decode_cons_of_ne ?_ _
      rintro rfl
      exact hset hpercent

/-- A text without percent signs was not encoded. -/
theorem encode_eq_self (h : '%' ∉ encode set cs) : encode set cs = cs := by
  refine encode_of_none fun c hc ↦ ?_
  by_contra hset
  obtain ⟨b, bs, hbytes⟩ := List.exists_cons_of_ne_nil (String.utf8EncodeChar_ne_nil (c := c))
  refine h (List.mem_flatMap.mpr ⟨c, hc, ?_⟩)
  rw [encodeChar, if_pos (Bool.not_eq_false _ ▸ hset), hbytes]
  exact List.mem_cons_self

end Percent

/-! ### The names of a path -/

namespace Path

variable {p : Path} {cs piece : List Char} {names : List (List Char)}

/-- A piece without slashes is a name, or goes up. -/
theorem ofPiece?_eq_some {c : Component} (h : Component.ofPiece? piece = some c) (hslash : '/' ∉ piece) :
    c = .parent ∧ piece = ['.', '.'] ∨ c = .normal piece ∧ IsName piece := by
  simp only [Component.ofPiece?] at h
  split at h
  · cases h
  · rename_i hsays
    obtain ⟨hne, hdot⟩ := not_or.mp hsays
    split at h
    · rename_i hdots
      exact Or.inl ⟨(Option.some.inj h).symm, hdots⟩
    · rename_i hdots
      exact Or.inr ⟨(Option.some.inj h).symm, hne, hslash, hdot, hdots⟩

theorem isName_of_mem_namesOf {name : List Char} (h : name ∈ namesOf cs) : IsName name := by
  rw [namesOf_eq] at h
  obtain ⟨piece, hpiece, hname⟩ := List.mem_filterMap.mp h
  obtain ⟨c, hc, hname⟩ := Option.bind_eq_some_iff.mp hname
  cases c with
  | normal n =>
    obtain rfl := Option.some.inj hname
    rcases ofPiece?_eq_some hc (Text.notMem_of_mem_splitOn hpiece) with ⟨hparent, -⟩ | ⟨hnormal, hisName⟩
    · cases hparent
    · exact Component.normal.inj hnormal ▸ hisName
  | root => cases hname
  | current => cases hname
  | parent => cases hname

theorem map_normal_filterMap_name? {cs : List Component} (h : ∀ c ∈ cs, ∃ name, c = .normal name) :
    (cs.filterMap Component.name?).map .normal = cs := by
  induction cs with
  | nil => rfl
  | cons c cs ih =>
    obtain ⟨name, rfl⟩ := h c List.mem_cons_self
    have hname : (Component.normal name).name? = some name := rfl
    rw [List.filterMap_cons_some hname, List.map_cons, ih fun c hc ↦ h c (List.mem_cons_of_mem _ hc)]

/-- An absolute path that never goes up is its names. -/
theorem components_eq_root_cons (habs : p.isAbsolute = true) (hup : .parent ∉ p.components) :
    p.components = .root :: (namesOf p.text.toList).map .normal := by
  obtain ⟨rest, hrest⟩ : ∃ rest, p.text.toList = '/' :: rest := by
    simpa [isAbsolute, List.head?_eq_some_iff] using habs
  rw [components, hrest, componentsOf_slash] at hup
  rw [components, namesOf, hrest, componentsOf_slash, List.filterMap_cons_none rfl,
    map_normal_filterMap_name? fun c hc ↦ ?_]
  obtain ⟨piece, -, hpiece⟩ := List.mem_filterMap.mp hc
  simp only [Component.ofPiece?] at hpiece
  split at hpiece
  · cases hpiece
  · split at hpiece
    · obtain rfl := Option.some.inj hpiece
      exact absurd (List.mem_cons_of_mem _ hc) hup
    · exact ⟨piece, (Option.some.inj hpiece).symm⟩

theorem componentsOf_flatMap_slash (hnames : ∀ name ∈ names, IsName name) (hne : names ≠ []) :
    componentsOf (names.flatMap ('/' :: ·)) = .root :: names.map .normal := by
  have hjoin : names.flatMap ('/' :: ·) = '/' :: Text.joinWith '/' names := by
    rw [← Url.flatten_map_cons hne, List.flatMap]
  rw [hjoin, componentsOf_slash, Text.splitOn_joinWith hne fun name hname ↦ (hnames name hname).slash,
    filterMap_ofPiece? hnames]

/-- A slash at the end says nothing. -/
theorem componentsOf_concat_slash (hne : cs ≠ []) : componentsOf (cs ++ ['/']) = componentsOf cs := by
  rw [componentsOf_append_slash hne]
  simp [Text.splitOn, Component.ofPiece?]

theorem stripRoot?_append (rs cs : List Component) : stripRoot? rs (rs ++ cs) = some cs := by
  induction rs with
  | nil => rfl
  | cons r rs ih => rw [List.cons_append, stripRoot?, if_pos rfl, ih]

end Path

/-! ### Addresses of files -/

namespace Url

variable {p : Path} {name : List Char} {names : List (List Char)}

/-- A letter and a bar, which an address takes for a drive. -/
def isBarred (name : List Char) : Bool :=
  match name with
  | [a, b] => isLetter a && b = '|'
  | _ => false

/-- A name as it is written in an address. -/
def nameText (name : List Char) : List Char :=
  Percent.encode Percent.segmentSet name

theorem isSegment_nameText (h : Path.IsName name) : IsSegment .file (nameText name) := by
  have hnot {c : Char} (hcode : Percent.isCode c = false) (hset : Percent.segmentSet c = true) :
      c ∉ nameText name := by
    intro hc
    rcases Percent.mem_encode hc with hc | ⟨hc, -⟩
    · simp [hcode] at hc
    · simp [hset] at hc
  have hdots : (nameText name).map lower ∉ dotForms := by
    intro hforms
    have hplain := eq_false_of_mem_dotForms rfl hforms
    rw [nameText, Percent.encode_of_none hplain] at hforms
    have hall : ∀ d ∈ dotForms, '%' ∈ d ∨ d = ['.'] ∨ d = ['.', '.'] := by decide
    have hdot (c : Char) : lower c = '.' ↔ c = '.' := lower_eq_iff (by decide)
    have hpercent (c : Char) : lower c = '%' ↔ c = '%' := lower_eq_iff (by decide)
    rcases hall _ hforms with hmem | hone | htwo
    · obtain ⟨c, hc, hlower⟩ := List.mem_map.mp hmem
      obtain rfl := (hpercent c).mp hlower
      cases hplain _ hc
    · exact h.ne_dot (by simpa [List.map_eq_cons_iff, hdot] using hone)
    · exact h.ne_dots (by simpa [List.map_eq_cons_iff, hdot] using htwo)
  rw [mem_dotForms, not_or, Bool.not_eq_true, Bool.not_eq_true] at hdots
  refine ⟨fun c hc ↦ ?_, hnot rfl rfl, fun _ ↦ hnot rfl rfl, hdots.1, hdots.2⟩
  rcases Percent.mem_encode hc with hc | ⟨hc, -⟩
  · exact Percent.pathSet_of_isCode hc
  · exact (Bool.or_eq_false_iff.mp hc).1

theorem nameText_ne_nil (h : Path.IsName name) : nameText name ≠ [] :=
  Percent.encode_ne_nil h.ne_nil

/-- A name that is written like a drive is one of a letter and a colon. -/
theorem eq_of_isDrive_nameText (hbar : isBarred name = false) (h : isDrive (nameText name) = true) :
    (nameText name).take 1 ++ [':'] = nameText name := by
  obtain ⟨a, b, heq, ha, hb⟩ := exists_of_isDrive h
  rcases hb with rfl | rfl
  · rw [heq]
    rfl
  · have hpercent : '%' ∉ nameText name := by
      have hne : a ≠ '%' := by
        rintro rfl
        cases ha
      simp [heq, hne.symm]
    have hsame : nameText name = name := Percent.encode_eq_self hpercent
    rw [← hsame, heq] at hbar
    simp [isBarred, ha] at hbar

/-- The names of a path are read as they are written. -/
theorem readSegments_nameTexts (hne : names ≠ []) (hnames : ∀ name ∈ names, Path.IsName name)
    (hbar : ∀ name ∈ names.head?, isBarred name = false) :
    readSegments .file (Text.joinWith '/' (names.map nameText)) = names.map nameText := by
  obtain ⟨first, rest, rfl⟩ := List.exists_cons_of_ne_nil hne
  have hsegments : ∀ s ∈ (first :: rest).map nameText, IsSegment .file s := by
    intro s hs
    obtain ⟨name, hname, rfl⟩ := List.mem_map.mp hs
    exact isSegment_nameText (hnames name hname)
  have hfirst : nameText first ≠ [] := nameText_ne_nil (hnames first List.mem_cons_self)
  by_cases hdrive : isDrive (nameText first) = true
  · rw [List.map_cons] at hsegments
    simp only [readSegments, List.map_cons, piecesOf_join (List.cons_ne_nil _ _) hsegments,
      pushPieces_drive hdrive hsegments, eq_of_isDrive_nameText (hbar first rfl) hdrive]
    simp [hfirst]
  · refine readSegments_join (by simp) hsegments fun _ s hs ↦ ?_
    obtain rfl : nameText first = s := by simpa using hs
    exact ⟨hfirst, Bool.not_eq_true _ ▸ hdrive⟩

/-- The segments of the address of a path. -/
def segmentsOfNames : List (List Char) → List (List Char)
  | [] => [[]]
  | names => names.map nameText

theorem ofFile?_eq (habs : p.isAbsolute = true) (hp : p.components = .root :: names.map .normal) :
    ofFile? p = some (ofSegments (segmentsOfNames names)) := by
  have hitems : p.components.filterMap componentText? = names.map nameText := by
    have hroot : componentText? .root = none := rfl
    rw [hp, List.filterMap_cons_none hroot, List.filterMap_map, ← List.filterMap_eq_map]
    rfl
  simp only [ofFile?, habs, if_true, hitems]
  cases names <;> rfl

/-- The address of a file is read as it is written. -/
theorem parse_text_ofSegments (hnames : ∀ name ∈ names, Path.IsName name)
    (hbar : ∀ name ∈ names.head?, isBarred name = false) :
    parse (ofSegments (segmentsOfNames names)).text = .ok (ofSegments (segmentsOfNames names)) := by
  have hscheme : IsScheme "file".toList := ⟨⟨'f', rfl, rfl⟩, List.all_eq_true.mp rfl, rfl⟩
  have hread : readSegments .file (Text.joinWith '/' (segmentsOfNames names)) =
      segmentsOfNames names := by
    cases names with
    | nil => decide
    | cons first rest => exact readSegments_nameTexts (List.cons_ne_nil _ _) hnames hbar
  have hne : segmentsOfNames names ≠ [] := by cases names <;> simp [segmentsOfNames]
  have hsegments : ∀ s ∈ segmentsOfNames names, IsSegment .file s := by
    cases names with
    | nil => simpa [segmentsOfNames] using isSegment_nil .file
    | cons first rest =>
      intro s hs
      obtain ⟨name, hname, rfl⟩ := List.mem_map.mp hs
      exact isSegment_nameText (hnames name hname)
  have hparse := parseChars_of_host_none hscheme rfl hne hsegments
  rw [hread] at hparse
  rw [parse, text, String.toList_ofList]
  exact hparse

/-- What the segments of an address decode to, each after a slash. -/
theorem bytes_segmentsOfNames (hnames : ∀ name ∈ names, Path.IsName name) :
    ∃ cs, (segmentsOfNames names).flatMap (fun item ↦ 0x2F :: Percent.decode item) = Text.utf8Bytes cs ∧
      cs ≠ [] ∧ Path.componentsOf cs = .root :: names.map .normal := by
  cases names with
  | nil =>
    refine ⟨['/'], ?_, by simp, by decide⟩
    rw [segmentsOfNames, List.flatMap_singleton, Percent.decode]
    rfl
  | cons first rest =>
    refine ⟨(first :: rest).flatMap ('/' :: ·), ?_, by simp,
      Path.componentsOf_flatMap_slash hnames (List.cons_ne_nil _ _)⟩
    have hslash (name : List Char) :
        0x2F :: Percent.decode (nameText name) = Text.utf8Bytes ('/' :: name) := by
      rw [nameText, Percent.decode_encode rfl]
      rfl
    have hflat : Text.utf8Bytes ((first :: rest).flatMap ('/' :: ·)) =
        (first :: rest).flatMap fun name ↦ Text.utf8Bytes ('/' :: name) := List.flatMap_assoc
    rw [segmentsOfNames, List.flatMap_map, hflat]
    · simp only [hslash]
    · simp

/-- The address of a file names the path that it was made of; a drive at its end is followed by a slash. -/
theorem filePath?_ofSegments (hnames : ∀ name ∈ names, Path.IsName name) :
    ∃ cs, filePath? (ofSegments (segmentsOfNames names)) = some (Text.utf8Bytes cs) ∧
      Path.componentsOf cs = .root :: names.map .normal := by
  obtain ⟨cs, hbytes, hne, hcomponents⟩ := bytes_segmentsOfNames hnames
  have hfile : String.ofList (ofSegments (segmentsOfNames names)).scheme = "file" ∧
      (ofSegments (segmentsOfNames names)).host.isNone = true := ⟨rfl, rfl⟩
  have hslash : Text.utf8Bytes (cs ++ ['/']) = Text.utf8Bytes cs ++ [0x2F] := by
    rw [Text.utf8Bytes_append]
    rfl
  have hmore := (Path.componentsOf_concat_slash hne).trans hcomponents
  rw [filePath?, if_pos hfile]
  simp only [ofSegments, hbytes]
  split
  · split
    · exact ⟨cs ++ ['/'], congrArg some hslash.symm, hmore⟩
    · exact ⟨cs, rfl, hcomponents⟩
  · exact ⟨cs, rfl, hcomponents⟩

end Url

end CodeNav
