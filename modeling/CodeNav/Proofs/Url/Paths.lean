import CodeNav.Proofs.Text.Split
import CodeNav.Proofs.Url.Characters

/-!
# Paths are read as they are written

The segments of an address that was read have no characters that are encoded in a path, and none of
them stands for the place itself or the one above. Such segments, written out with slashes between
them, are read again as they are. Only the first segment of the path of a file may be taken for a
drive.

## Main definitions

* `Url.IsSegment`: a segment as it is written

## Main statements

* `Url.isSegment_of_mem_readSegments`: what is read of a path
* `Url.readSegments_join`: segments are read as they are written
* `Url.beginsWithDrive_join`: when a path is taken for one on a drive
-/

namespace CodeNav.Url

variable {kind : Kind} {piece s : List Char} {items pieces : List (List Char)} {cs : List Char}

/-- A segment as it is written. -/
structure IsSegment (kind : Kind) (s : List Char) : Prop where
  path : ∀ c ∈ s, Percent.pathSet c = false
  slash : '/' ∉ s
  backslash : kind ≠ .other → '\\' ∉ s
  single : isSingleDot s = false
  double : isDoubleDot s = false

theorem isSegment_nil (kind : Kind) : IsSegment kind [] :=
  ⟨by simp, by simp, by simp, by decide, by decide⟩

theorem IsSegment.isVisible (h : IsSegment kind s) : ∀ c ∈ s, Url.isVisible c = true :=
  fun c hc ↦ isVisible_of_pathSet (h.path c hc)

/-! ### Dots -/

/-- The segments that stand for the place itself and the one above, in lower case. -/
def dotForms : List (List Char) :=
  [['.'], ['%', '2', 'e'], ['.', '.'], ['%', '2', 'e', '.'], ['.', '%', '2', 'e'],
    ['%', '2', 'e', '%', '2', 'e']]

theorem mem_dotForms : s.map lower ∈ dotForms ↔ isSingleDot s = true ∨ isDoubleDot s = true := by
  simp [dotForms, isSingleDot, isDoubleDot, or_assoc]

/-- The only character that is encoded in them is a dot. -/
theorem eq_of_mem_dotForms {a b : List Char} {x y : Char} (h : a ++ '%' :: x :: y :: b ∈ dotForms) :
    x = '2' ∧ y = 'e' := by
  have hall : ∀ d ∈ dotForms, ∀ i < d.length, d[i]? = some '%' →
      d[i + 1]? = some '2' ∧ d[i + 2]? = some 'e' := by decide
  have hat := hall _ h a.length (by simp) (by simp)
  simpa [List.getElem?_append_right] using hat

/-- A character whose first byte is that of a dot is a dot. -/
theorem eq_dot_of_utf8EncodeChar {c : Char} {bs : List UInt8}
    (h : String.utf8EncodeChar c = 0x2E :: bs) : c = '.' := by
  have hlead (n : Nat) (hn : n < 0x40) : UInt8.ofNat (n + 0xC0) ≠ 0x2E := by
    have hall : ∀ n < 0x40, UInt8.ofNat (n + 0xC0) ≠ 0x2E := by decide
    exact hall n hn
  have hval : c.val.toNat = c.toNat := rfl
  simp only [String.utf8EncodeChar] at h
  split at h
  · rename_i hsmall
    have hbyte := congrArg UInt8.toNat (List.cons.inj h).1
    rw [UInt8.toNat_ofNat', Nat.mod_eq_of_lt (by omega)] at hbyte
    exact Char.toNat_inj.mp hbyte
  · split at h
    · exact absurd (List.cons.inj h).1 (hlead (c.val.toNat / 64 % 32) (by omega))
    · split at h
      · exact absurd (List.cons.inj h).1 (hlead (c.val.toNat / 4096 % 16 + 32) (by omega))
      · exact absurd (List.cons.inj h).1 (hlead (c.val.toNat / 262144 % 8 + 48) (by omega))

/-- A character that is encoded is not written like a dot. -/
theorem encodeByte_eq {b : UInt8} (h : lower (Percent.upperHex (b.toNat / 16)) = '2' ∧
    lower (Percent.upperHex (b.toNat % 16)) = 'e') : b = 0x2E := by
  have hall : ∀ n < 256, lower (Percent.upperHex (n / 16)) = '2' ∧
      lower (Percent.upperHex (n % 16)) = 'e' → n = 0x2E := by decide +kernel
  exact UInt8.toNat_inj.mp (hall b.toNat b.toNat_lt h)

/-- Encoding makes no dots: where there are dots, nothing was encoded. -/
theorem eq_false_of_mem_dotForms {set : Char → Bool} (hdot : set '.' = false)
    (h : (Percent.encode set s).map lower ∈ dotForms) : ∀ c ∈ s, set c = false := by
  intro c hc
  by_contra hset
  have hset : set c = true := Bool.not_eq_false _ ▸ hset
  obtain ⟨before, after, rfl⟩ := List.append_of_mem hc
  have hne : String.utf8EncodeChar c ≠ [] := String.utf8EncodeChar_ne_nil
  obtain ⟨b, bs, hbytes⟩ := List.exists_cons_of_ne_nil hne
  have hencode : Percent.encode set (before ++ c :: after) =
      Percent.encode set before ++ '%' :: Percent.upperHex (b.toNat / 16) ::
        Percent.upperHex (b.toNat % 16) ::
          (bs.flatMap Percent.encodeByte ++ Percent.encode set after) := by
    simp [Percent.encode, Percent.encodeChar, hset, hbytes, Percent.encodeByte]
  rw [hencode, List.map_append] at h
  obtain rfl : c = '.' := by
    have hbyte : b = 0x2E := encodeByte_eq (eq_of_mem_dotForms h)
    exact eq_dot_of_utf8EncodeChar (hbyte ▸ hbytes)
  simp [hdot] at hset

theorem mem_dotForms_of_encode {set : Char → Bool} (hdot : set '.' = false)
    (h : (Percent.encode set s).map lower ∈ dotForms) : s.map lower ∈ dotForms := by
  have hnone := eq_false_of_mem_dotForms hdot h
  rwa [Percent.encode_of_none hnone] at h

theorem not_dots_encode (h : ¬ (isSingleDot s = true ∨ isDoubleDot s = true)) :
    isSingleDot (Percent.encode Percent.pathSet s) = false ∧
      isDoubleDot (Percent.encode Percent.pathSet s) = false := by
  have hdot : Percent.pathSet '.' = false := rfl
  have hforms := mt (mem_dotForms_of_encode hdot) (mt mem_dotForms.mp h)
  rw [mem_dotForms, not_or, Bool.not_eq_true, Bool.not_eq_true] at hforms
  exact hforms

/-! ### What is read of a path -/

theorem isLetter_spec {c : Char} (h : isLetter c = true) :
    Percent.pathSet c = false ∧ c ≠ '/' ∧ c ≠ '\\' := by
  have hascii : c.toNat < 0x80 := by
    simp only [isLetter, Bool.or_eq_true, Bool.and_eq_true, decide_eq_true_eq, toNat_le_iff] at h
    rcases h with ⟨-, h⟩ | ⟨-, h⟩ <;> exact Nat.lt_of_le_of_lt h (by decide)
  have hspec := of_ascii (q := fun c ↦ !Percent.pathSet c && c ≠ '/' && c ≠ '\\') (by decide +kernel)
    hascii h
  simpa [and_assoc] using hspec

theorem exists_of_isDrive (h : isDrive piece = true) :
    ∃ a b, piece = [a, b] ∧ isLetter a = true ∧ (b = ':' ∨ b = '|') := by
  unfold isDrive at h
  split at h
  · rename_i a b
    exact ⟨a, b, rfl, by simpa using h⟩
  · cases h

/-- The drive of a file as it is written. -/
theorem isSegment_drive (h : isDrive piece = true) : IsSegment kind (piece.take 1 ++ [':']) := by
  obtain ⟨a, b, rfl, ha, -⟩ := exists_of_isDrive h
  obtain ⟨hpath, hslash, hbackslash⟩ := isLetter_spec ha
  have hcolon : Percent.pathSet ':' = false := by decide
  refine ⟨?_, ?_, fun _ ↦ ?_, ?_, ?_⟩
  · simp [hpath, hcolon]
  · simp [hslash.symm]
  · simp [hbackslash.symm]
  · simp [isSingleDot]
  · have hlower : lower ':' = ':' := by decide
    simp [isDoubleDot, hlower]

/-- A piece of a path, encoded. -/
theorem isSegment_encode (hslash : '/' ∉ piece) (hbackslash : kind ≠ .other → '\\' ∉ piece)
    (hdots : ¬ (isSingleDot piece = true ∨ isDoubleDot piece = true)) :
    IsSegment kind (Percent.encode Percent.pathSet piece) where
  path c hc := by
    rcases Percent.mem_encode hc with hcode | ⟨hset, -⟩
    · exact Percent.pathSet_of_isCode hcode
    · exact hset
  slash hc := by
    rcases Percent.mem_encode hc with hcode | ⟨-, hmem⟩
    · cases hcode
    · exact hslash hmem
  backslash hkind hc := by
    rcases Percent.mem_encode hc with hcode | ⟨-, hmem⟩
    · cases hcode
    · exact hbackslash hkind hmem
  single := (not_dots_encode hdots).1
  double := (not_dots_encode hdots).2

theorem dropSegment_subset (kind : Kind) (items : List (List Char)) :
    dropSegment kind items ⊆ items := by
  unfold dropSegment
  split
  · split
    · exact List.Subset.refl _
    · exact List.nil_subset _
  · exact List.dropLast_subset _

/-- One more piece leaves segments. -/
theorem isSegment_of_mem_pushPiece {last : Bool} (hitems : ∀ s ∈ items, IsSegment kind s)
    (hslash : '/' ∉ piece) (hbackslash : kind ≠ .other → '\\' ∉ piece) :
    ∀ s ∈ pushPiece kind items piece last, IsSegment kind s := by
  have hend {items : List (List Char)} (hitems : ∀ s ∈ items, IsSegment kind s) :
      ∀ s ∈ (if last then items ++ [[]] else items), IsSegment kind s := by
    split
    · simpa [or_imp, forall_and] using ⟨hitems, isSegment_nil kind⟩
    · exact hitems
  unfold pushPiece
  split
  · exact hend fun s hs ↦ hitems s (dropSegment_subset _ _ hs)
  · split
    · exact hend hitems
    · rename_i hdouble hsingle
      split
      · rename_i hdrive
        simpa [or_imp, forall_and] using ⟨hitems, isSegment_drive hdrive.2.2⟩
      · have hencode := isSegment_encode hslash hbackslash (not_or.mpr ⟨hsingle, hdouble⟩)
        simpa [or_imp, forall_and] using ⟨hitems, hencode⟩

theorem isSegment_of_mem_pushPieces (hitems : ∀ s ∈ items, IsSegment kind s)
    (hpieces : ∀ p ∈ pieces, '/' ∉ p ∧ (kind ≠ .other → '\\' ∉ p)) :
    ∀ s ∈ pushPieces kind items pieces, IsSegment kind s := by
  fun_induction pushPieces kind items pieces with
  | case1 => exact hitems
  | case2 =>
    obtain ⟨hslash, hbackslash⟩ := hpieces _ List.mem_cons_self
    exact isSegment_of_mem_pushPiece hitems hslash hbackslash
  | case3 _ _ _ _ ih =>
    obtain ⟨hslash, hbackslash⟩ := hpieces _ List.mem_cons_self
    exact ih (isSegment_of_mem_pushPiece hitems hslash hbackslash) fun p hp ↦
      hpieces p (List.mem_cons_of_mem _ hp)

theorem spec_of_mem_piecesOf (h : piece ∈ piecesOf kind cs) :
    '/' ∉ piece ∧ (kind ≠ .other → '\\' ∉ piece) := by
  refine ⟨Text.notMem_of_mem_splitOn h, fun hkind hmem ↦ ?_⟩
  rw [piecesOf, if_neg hkind] at h
  obtain ⟨c, -, hc⟩ := List.mem_map.mp (Text.subset_of_mem_splitOn h hmem)
  split at hc
  · cases hc
  · contradiction

/-- What is read of a path. -/
theorem isSegment_of_mem_readSegments (h : s ∈ readSegments kind cs) : IsSegment kind s := by
  have hitems : ∀ s ∈ pushPieces kind [] (piecesOf kind cs), IsSegment kind s :=
    isSegment_of_mem_pushPieces (by simp) fun _ ↦ spec_of_mem_piecesOf
  simp only [readSegments] at h
  split at h
  · split at h
    · obtain rfl := List.mem_singleton.mp h
      exact isSegment_nil kind
    · exact hitems s ((List.dropWhile_sublist _).subset h)
  · exact hitems s h

/-! ### Segments that are read again -/

theorem piecesOf_join (hne : pieces ≠ []) (hpieces : ∀ p ∈ pieces, IsSegment kind p) :
    piecesOf kind (Text.joinWith '/' pieces) = pieces := by
  have hsplit := Text.splitOn_joinWith hne fun p hp ↦ (hpieces p hp).slash
  by_cases hkind : kind = .other
  · rw [piecesOf, if_pos hkind, hsplit]
  · have hsame : (Text.joinWith '/' pieces).map (fun c ↦ if c = '\\' then '/' else c) =
        Text.joinWith '/' pieces := by
      refine (List.map_congr_left fun c hc ↦ if_neg ?_).trans (List.map_id _)
      rintro rfl
      rcases Text.mem_joinWith hc with h | ⟨p, hp, hc⟩
      · cases h
      · exact (hpieces p hp).backslash hkind hc
    rw [piecesOf, if_neg hkind, hsame, hsplit]

theorem pushPiece_of_isSegment {last : Bool} (h : IsSegment kind piece)
    (hdrive : ¬ (kind = .file ∧ items = [] ∧ isDrive piece = true)) :
    pushPiece kind items piece last = items ++ [piece] := by
  rw [pushPiece, if_neg (by simp [h.double]), if_neg (by simp [h.single]), if_neg hdrive,
    Percent.encode_of_none h.path]

/-- Behind the first segment there is no drive. -/
theorem pushPieces_of_isSegment (hpieces : ∀ p ∈ pieces, IsSegment kind p)
    (hdrive : ∀ p ∈ pieces.head?, ¬ (kind = .file ∧ items = [] ∧ isDrive p = true)) :
    pushPieces kind items pieces = items ++ pieces := by
  induction pieces generalizing items with
  | nil => simp [pushPieces]
  | cons p rest ih =>
    have hp (last : Bool) : pushPiece kind items p last = items ++ [p] :=
      pushPiece_of_isSegment (hpieces p List.mem_cons_self) (hdrive p rfl)
    cases rest with
    | nil => exact hp true
    | cons q rest =>
      rw [pushPieces, hp, ih fun p hp ↦ hpieces p (List.mem_cons_of_mem _ hp)]
      · simp
      · simp

/-- Segments are read as they are written, when the first of them is none of a file's own. -/
theorem readSegments_join (hne : pieces ≠ []) (hpieces : ∀ p ∈ pieces, IsSegment kind p)
    (hfirst : kind = .file → ∀ p ∈ pieces.head?, p ≠ [] ∧ isDrive p = false) :
    readSegments kind (Text.joinWith '/' pieces) = pieces := by
  have hpush : pushPieces kind [] pieces = pieces := by
    refine pushPieces_of_isSegment hpieces fun p hp ↦ ?_
    rintro ⟨hkind, -, hdrive⟩
    simp [(hfirst hkind p hp).2] at hdrive
  rw [readSegments, piecesOf_join hne hpieces, hpush]
  split
  · rename_i hkind
    obtain ⟨p, rest, rfl⟩ := List.exists_cons_of_ne_nil hne
    have hp : p ≠ [] := (hfirst hkind p rfl).1
    simp [hp]
  · rfl

theorem isDrive_of_isPlainDrive (h : isPlainDrive piece = true) : isDrive piece = true := by
  unfold isPlainDrive at h
  split at h
  · simp_all [isDrive]
  · cases h

/-- A drive at the beginning is written with a colon. -/
theorem pushPieces_drive (hdrive : isDrive piece = true)
    (hpieces : ∀ p ∈ piece :: pieces, IsSegment .file p) :
    pushPieces .file [] (piece :: pieces) = (piece.take 1 ++ [':']) :: pieces := by
  have hpiece := hpieces piece List.mem_cons_self
  have hpush (last : Bool) : pushPiece .file [] piece last = [piece.take 1 ++ [':']] := by
    rw [pushPiece, if_neg (by simp [hpiece.double]), if_neg (by simp [hpiece.single]),
      if_pos ⟨rfl, rfl, hdrive⟩, List.nil_append]
  cases pieces with
  | nil => exact hpush true
  | cons q rest =>
    rw [pushPieces, hpush, pushPieces_of_isSegment fun p hp ↦ hpieces p (List.mem_cons_of_mem _ hp)]
    · rfl
    · simp

/-- A path is one on a drive when its first segment is a drive. -/
theorem beginsWithDrive_join (hne : pieces ≠ []) (hpieces : ∀ p ∈ pieces, IsSegment .file p) :
    beginsWithDrive .file (Text.joinWith '/' pieces) = pieces.head?.any isDrive := by
  rw [beginsWithDrive, piecesOf_join hne hpieces]
  obtain ⟨p, rest, rfl⟩ := List.exists_cons_of_ne_nil hne
  by_cases hdrive : isDrive p = true
  · obtain ⟨a, b, rfl, ha, -⟩ := exists_of_isDrive hdrive
    simp [pushPieces_drive hdrive hpieces, isPlainDrive, ha, hdrive]
  · have hpush : pushPieces .file [] (p :: rest) = p :: rest := by
      refine pushPieces_of_isSegment hpieces fun q hq ↦ ?_
      obtain rfl := Option.some.inj hq
      exact fun h ↦ hdrive h.2.2
    have hplain : isPlainDrive p = false := Bool.eq_false_iff.mpr (mt isDrive_of_isPlainDrive hdrive)
    simp [hpush, hplain, hdrive]

end CodeNav.Url
