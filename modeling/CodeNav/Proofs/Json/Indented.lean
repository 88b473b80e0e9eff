import CodeNav.Json.Shape.Text
import CodeNav.Proofs.Json.Rereading
import CodeNav.Proofs.Text.Utf8

/-!
# Records are read from their indented text

An object that is written with each member on a line of its own is read as a record with these members, if
each of them is read as its shape wants it.

## Main definitions

* `Json.ReadsAs`: a value is read as one of a shape, in the place of a member

## Main statements

* `Json.byteText_utf8Bytes`: a text is read from its bytes
* `Json.readMembers_inList`: members are read from their lines
* `Json.read_indentedChars`: a record is read from its indented text
-/

namespace CodeNav

namespace Json

variable {fuel depth level : Nat} {first : Bool} {c : Char} {cs rest : List Char} {members : List (Label × Shape)}
  {got : List (String × Json)}

/-! ### Bytes -/

/-- A text without U+0000 is read from its bytes. -/
theorem byteText_utf8Bytes (h : '\x00' ∉ cs) : byteText (Text.utf8Bytes cs) = cs := by
  have hgo (cs : List Char) (h : '\x00' ∉ cs) (fuel : Nat) (hfuel : (Text.utf8Bytes cs).length ≤ fuel) :
      byteText.go fuel (Text.utf8Bytes cs) = cs := by
    induction cs generalizing fuel with
    | nil => cases fuel <;> rfl
    | cons c cs ih =>
      obtain ⟨hc, hcs⟩ := not_or.mp (mt List.mem_cons.mpr h)
      rw [Text.utf8Bytes_cons] at hfuel ⊢
      have hpos : 0 < (String.utf8EncodeChar c).length := by
        rw [String.length_utf8EncodeChar]
        exact c.utf8Size_pos
      obtain ⟨fuel, rfl⟩ := Nat.exists_eq_succ_of_ne_zero (n := fuel) (by
        rw [List.length_append] at hfuel
        omega)
      have hne : c.toNat ≠ 0 := by
        intro hzero
        exact hc (Char.toNat_inj.mp hzero).symm
      have hmax : max (String.utf8EncodeChar c).length 1 = (String.utf8EncodeChar c).length := by omega
      have hcons : ∃ b more, String.utf8EncodeChar c ++ Text.utf8Bytes cs = b :: more := by
        cases henc : String.utf8EncodeChar c with
        | nil => simp [henc] at hpos
        | cons b more => exact ⟨b, more ++ Text.utf8Bytes cs, rfl⟩
      obtain ⟨b, more, hbytes⟩ := hcons
      rw [hbytes, byteText.go, ← hbytes, Text.leadingUnit_utf8EncodeChar]
      simp only [if_true, hmax, List.take_left, List.drop_left, Text.codePoint_utf8EncodeChar, if_neg hne,
        Char.ofNat_toNat]
      rw [ih hcs fuel]
      rw [List.length_append] at hfuel
      omega
  exact hgo cs h _ (Nat.le_refl _)

/-- No character is written as U+0000. -/
theorem zero_notMem_escape (c : Char) : '\x00' ∉ escape c := by
  have hdigit {n : Nat} (hn : n < 16) : '\x00' ≠ hexDigit n := by
    intro heq
    have hvalue := hexValue?_hexDigit hn
    rw [← heq] at hvalue
    cases hvalue
  unfold escape
  split_ifs with hquote hback hplain h8 hC hA hD h9
  · decide
  · decide
  · rintro hmem
    obtain rfl := List.mem_singleton.mp hmem
    exact absurd hplain (by decide)
  · decide
  · decide
  · decide
  · decide
  · decide
  · have hlow : c.toNat < 0x20 := Nat.not_le.mp hplain
    simp [hdigit (show c.toNat / 16 < 16 by omega), hdigit (Nat.mod_lt c.toNat (show 0 < 16 by decide))]

theorem zero_notMem_quoteChars (s : String) : '\x00' ∉ quoteChars s := by
  have hall (cs : List Char) : '\x00' ∉ escapeAll cs := by
    induction cs with
    | nil => simp [escapeAll]
    | cons c cs ih => simp [escapeAll, zero_notMem_escape c, ih]
  simp [quoteChars, hall]

/-! ### Blanks -/

theorem dropSpaces_append (hcs : ∀ c ∈ cs, isSpace c = true) (rest : List Char) :
    dropSpaces (cs ++ rest) = dropSpaces rest :=
  List.dropWhile_append_of_pos hcs

theorem isSpace_of_mem_lineBreak (h : c ∈ lineBreak level) : isSpace c = true := by
  rcases List.mem_cons.mp h with rfl | h
  · rfl
  · obtain rfl := List.eq_of_mem_replicate h
    rfl

theorem dropSpaces_lineBreak (level : Nat) (rest : List Char) :
    dropSpaces (lineBreak level ++ rest) = dropSpaces rest :=
  dropSpaces_append (fun _ h ↦ isSpace_of_mem_lineBreak h) rest

/-! ### Members -/

/-- A member on a line of its own. -/
def lineChars (level : Nat) (f : String × Json) : List Char :=
  lineBreak level ++ quoteChars f.1 ++ [':', ' '] ++ indentedChars level f.2

theorem indentedFields_eq (level : Nat) (fields : List (String × Json)) :
    indentedFields level fields = inList true (fields.map (lineChars level)) := by
  induction fields with
  | nil => rfl
  | cons f fields ih =>
    cases fields with
    | nil => simp [indentedFields, inList, separator, lineChars]
    | cons g fields => simpa [indentedFields, inList, separator, lineChars] using ih

/-- A value is read as one of a shape, in the place of a member. -/
def ReadsAs (shape : Shape) (v : Json) : Prop :=
  ∀ fuel depth level rest,
    readShape (fuel + 1) depth shape (' ' :: (indentedChars level v ++ rest)) = .ok (v, rest)

theorem dropSpaces_blank (cs : List Char) : dropSpaces (' ' :: cs) = dropSpaces cs := rfl

theorem readsAs_text (s : String) : ReadsAs .text (.string s) := by
  intro fuel depth level rest
  simp [readShape, dropSpaces_blank, indentedChars, compactChars, quoteChars,
    dropSpaces_cons (show isSpace '"' = false from rfl), stringBody_quoteChars, Except.map]

theorem readsAs_truth (b : Bool) : ReadsAs .truth (.bool b) := by
  intro fuel depth level rest
  cases b <;>
    simp [readShape, dropSpaces_blank, indentedChars, compactChars, literal,
      dropSpaces_cons (show isSpace 't' = false from rfl), dropSpaces_cons (show isSpace 'f' = false from rfl)]

theorem readsAs_word {words : List String} {s : String} (h : s ∈ words) :
    ReadsAs (.word words) (.string s) := by
  intro fuel depth level rest
  simp [readShape, dropSpaces_blank, indentedChars, compactChars, quoteChars,
    dropSpaces_cons (show isSpace '"' = false from rfl), stringBody_quoteChars, acceptWord, settled, h,
    bind, Except.bind]

/-- The members of a record are read from their lines. -/
theorem readMembers_inList (depth level : Nat) (fields : List (String × Json)) (first : Bool)
    (hmembers : ∀ f ∈ fields, ∃ label shape, memberOf? members f.1 = some (label, shape) ∧
      label.name = f.1 ∧ ReadsAs shape f.2)
    (hnodup : (fields.map Prod.fst).Nodup) (hgot : ∀ f ∈ fields, lookup f.1 got = none)
    (hfuel : fields.length + 1 < fuel) (level₁ : Nat) (rest : List Char) :
    readMembers fuel depth members first got
      (inList first (fields.map (lineChars level)) ++ (lineBreak level₁ ++ '\x7d' :: rest)) =
        .ok (fields.reverse ++ got, rest) := by
  induction fields generalizing first got fuel with
  | nil =>
    obtain ⟨fuel, rfl⟩ := Nat.exists_eq_succ_of_ne_zero (n := fuel) (by omega)
    simp [readMembers, inList, nextKey, dropSpaces_lineBreak, bind, Except.bind,
      dropSpaces_cons (show isSpace '\x7d' = false from rfl)]
  | cons f fields ih =>
    obtain ⟨k, v⟩ := f
    obtain ⟨fuel, rfl⟩ := Nat.exists_eq_succ_of_ne_zero (n := fuel) (by omega)
    obtain ⟨fuel, rfl⟩ := Nat.exists_eq_succ_of_ne_zero (n := fuel) (by
      simp only [List.length_cons] at hfuel
      omega)
    obtain ⟨label, shape, hlabel, rfl, hreads⟩ := hmembers _ List.mem_cons_self
    rw [List.map_cons, List.nodup_cons] at hnodup
    have hnone : lookup label.name got = none := hgot _ List.mem_cons_self
    have hlater : ∀ g ∈ fields, lookup g.1 ((label.name, v) :: got) = none := fun g hg ↦ by
      have hne : label.name ≠ g.1 := fun heq ↦
        hnodup.1 (show label.name ∈ _ from heq ▸ List.mem_map_of_mem hg)
      simpa [lookup, hne] using hgot g (List.mem_cons_of_mem _ hg)
    have hshorter : fields.length + 1 < fuel + 1 := by
      simp only [List.length_cons] at hfuel
      omega
    have hmore := ih false (fun f hf ↦ hmembers f (List.mem_cons_of_mem _ hf)) hnodup.2 hlater hshorter
    generalize hafter : inList false (fields.map (lineChars level)) ++ (lineBreak level₁ ++ '\x7d' :: rest) =
      after at hmore
    have hnext : nextKey first (inList first (((label.name, v) :: fields).map (lineChars level)) ++
        (lineBreak level₁ ++ '\x7d' :: rest)) = .ok (true, escapeAll label.name.toList ++ '"' :: ':' ::
          ' ' :: (indentedChars level v ++ after)) := by
      rw [← hafter]
      cases first <;>
        simp [nextKey, inList, separator, lineChars, quoteChars, dropSpaces_lineBreak,
          dropSpaces_cons (show isSpace '"' = false from rfl),
          dropSpaces_cons (show isSpace ',' = false from rfl)]
    have hcolon (cs : List Char) : colon (':' :: cs) = .ok cs := rfl
    simp only [readMembers, hnext, stringBody_quoteChars, hlabel, hnone, hcolon, bind, Except.bind, if_true,
      Option.isSome_none, Bool.false_eq_true, if_false, hreads fuel depth level after, hmore]
    simp

/-- A record is read from its indented text. -/
theorem read_indentedChars {name : String} {fields out : List (String × Json)} {f : String × Json}
    (hmembers : ∀ g ∈ f :: fields, ∃ label shape, memberOf? members g.1 = some (label, shape) ∧
      label.name = g.1 ∧ ReadsAs shape g.2)
    (hnodup : ((f :: fields).map Prod.fst).Nodup)
    (hout : complete (members.map Prod.fst) (f :: fields).reverse = .ok out) :
    (Shape.record name members).read (indentedChars 0 (.object (f :: fields))) = .ok (.object out) := by
  have hlength (fields : List (String × Json)) (first : Bool) :
      fields.length ≤ (inList first (fields.map (lineChars 1))).length := by
    induction fields generalizing first with
    | nil => simp
    | cons g fields ih =>
      have := ih false
      simp only [List.map_cons, inList, lineChars, quoteChars, List.length_append, List.length_cons]
      omega
  have htext : indentedChars 0 (.object (f :: fields)) = '\x7b' ::
      (inList true ((f :: fields).map (lineChars 1)) ++ (lineBreak 0 ++ ['\x7d'])) := by
    simp [indentedChars, indentedFields_eq]
  have hfuel : (f :: fields).length + 1 < fuelFor (indentedChars 0 (.object (f :: fields))) + 15 := by
    have := hlength (f :: fields) true
    simp only [htext, fuelFor, List.length_cons, List.length_append] at this ⊢
    omega
  have hnone : ∀ g ∈ f :: fields, lookup g.1 ([] : List (String × Json)) = none := fun _ _ ↦ rfl
  have hread := readMembers_inList 126 1 (f :: fields) true hmembers hnodup hnone hfuel 0 []
  rw [List.append_nil] at hread
  have hshape : readShape (fuelFor (indentedChars 0 (.object (f :: fields))) + 16) maxDepth
      (.record name members) (indentedChars 0 (.object (f :: fields))) = .ok (.object out, []) := by
    rw [show fuelFor (indentedChars 0 (.object (f :: fields))) + 16 =
      fuelFor (indentedChars 0 (.object (f :: fields))) + 15 + 1 from rfl]
    generalize fuelFor (indentedChars 0 (.object (f :: fields))) + 15 = fuel at hread
    rw [htext]
    simp only [readShape, maxDepth, dropSpaces_cons (show isSpace '\x7b' = false from rfl), if_true, hread,
      bind, Except.bind, hout, Except.map, settled]
  simp [Shape.read, hshape, finish, dropSpaces, bind, Except.bind]

end Json

end CodeNav
