import CodeNav.Command
import CodeNav.Proofs.Text.Replace

/-!
# Secrets of commands

The secrets of a command are replaced one after the other, and one may be a part of another or
overlap it. Since the mask is made of asterisks and no secret has one, a mask that is put in place of
a secret brings forth no other: what is shown holds none of them.

## Main definitions

* `Command.Masked`: some occurrences of secrets replaced by the mask, one at a time
* `Command.Conceals`: what may be shown of a text

## Main statements

* `Command.conceals_withSecrets`: texts and the command line are shown without the secrets
-/

namespace CodeNav.Command

variable {c : Command} {secrets : List String} {text : String} {cs : List Char}

/-- A text in which some occurrences of secrets are replaced by the mask, one at a time. -/
inductive Masked (secrets : List String) (text : List Char) : List Char → Prop
  | refl : Masked secrets text text
  | step {s : String} (before after : List Char) (hs : s ∈ secrets)
      (h : Masked secrets text (before ++ s.toList ++ after)) :
      Masked secrets text (before ++ mask.toList ++ after)

/-- What is shown of a text when some secrets are to be kept. -/
structure Conceals (c : Command) (secrets : List String) (text shown : String) : Prop where
  /-- No secret is in it. -/
  hidden : ∀ s ∈ secrets, s ≠ "" → ¬ s.toList <:+: shown.toList
  /-- To conceal it again changes nothing. -/
  settled : c.redact shown = shown
  /-- A text without secrets is shown as it is. -/
  plain : (∀ s ∈ secrets, s ≠ "" → ¬ s.toList <:+: text.toList) → shown = text
  /-- Nothing but secrets is masked. -/
  masked : Masked secrets text.toList shown.toList

/-! ### Secrets and the command line -/

theorem foldl_withSecret (c : Command) (secrets : List String) :
    secrets.foldl withSecret c = { c with secrets := c.secrets ++ secrets.filter (· ≠ "") } := by
  induction secrets generalizing c with
  | nil => simp
  | cons s secrets ih =>
    rw [List.foldl_cons, ih, withSecret]
    by_cases hs : s = "" <;> simp [hs]

/-- The command line is the program and the arguments with blanks between them. -/
theorem line_eq_intercalate (c : Command) : c.line = " ".intercalate (c.program :: c.args) := by
  obtain ⟨program, args, folder, secrets⟩ := c
  rw [line]
  induction args generalizing program with
  | nil => exact String.intercalate_singleton.symm
  | cons arg args ih =>
    rw [List.foldl_cons, ih, String.intercalate_cons_append, String.intercalate_cons_cons]

/-! ### Replacing one secret after the other -/

namespace Masked

/-- The occurrences of a secret that are replaced from some place on are masked. -/
theorem replaceFrom {s : String} (hs : s ∈ secrets) (hne : s.toList ≠ []) {text : List Char}
    (before : List Char) {skip : Nat} (h : Masked secrets text (before ++ cs.drop skip)) :
    Masked secrets text (before ++ Text.replaceFrom s.toList mask.toList skip cs) := by
  induction cs generalizing skip before with
  | nil => cases skip <;> simpa [Text.replaceFrom] using h
  | cons c cs ih =>
    cases skip with
    | succ skip => exact ih before h
    | zero =>
      rw [Text.replaceFrom]
      split
      · rename_i hlead
        obtain ⟨after, hafter⟩ := Text.isSome_dropLead?_iff.mp hlead
        obtain ⟨b, tail, htail⟩ := List.exists_cons_of_ne_nil hne
        have hrest : cs.drop (s.toList.length - 1) = after := by
          rw [htail, List.cons_append] at hafter
          rw [htail, ← (List.cons.inj hafter).2]
          exact List.drop_left
        rw [← List.append_assoc]
        refine ih _ (hrest ▸ .step before after hs ?_)
        rwa [List.append_assoc, hafter]
      · rw [← List.singleton_append, ← List.append_assoc]
        exact ih _ (by simpa using h)

/-- The occurrences of a secret that are replaced are masked. -/
theorem replaceAll {s : String} (hs : s ∈ secrets) {text : List Char}
    (h : Masked secrets text cs) :
    Masked secrets text (Text.replaceAll s.toList mask.toList cs) := by
  rw [Text.replaceAll]
  split
  · exact h
  · rename_i hne
    exact replaceFrom hs (by simpa using hne) [] h

end Masked

section

variable {text : String} (hmask : ∀ s ∈ secrets, mask.toList.Disjoint s.toList)

/-- A secret that was not there does not come forth. -/
theorem infix_of_infix_foldl {q : List Char} (hq : mask.toList.Disjoint q)
    (h : q <:+: (secrets.foldl (fun acc s ↦ Text.replaced s mask acc) text).toList) :
    q <:+: text.toList := by
  induction secrets generalizing text with
  | nil => exact h
  | cons s secrets ih =>
    have hfirst : q <:+: (Text.replaced s mask text).toList := ih h
    rw [Text.toList_replaced] at hfirst
    exact Text.infix_of_infix_replaceAll (by simp [mask]) hq hfirst

include hmask in
/-- After all replacements no secret is there. -/
theorem not_infix_foldl {s : String} (hs : s ∈ secrets) (hne : s ≠ "") :
    ¬ s.toList <:+: (secrets.foldl (fun acc s ↦ Text.replaced s mask acc) text).toList := by
  induction secrets generalizing text with
  | nil => cases hs
  | cons s' secrets ih =>
    rcases List.mem_cons.mp hs with rfl | hs
    · intro h
      have hfirst : s.toList <:+: (Text.replaced s mask text).toList :=
        infix_of_infix_foldl (hmask s List.mem_cons_self) h
      rw [Text.toList_replaced] at hfirst
      exact Text.not_infix_replaceAll (by simp [mask]) (hmask s List.mem_cons_self)
        (by simpa using hne) hfirst
    · exact ih (fun s hs ↦ hmask s (List.mem_cons_of_mem _ hs)) hs

/-- Where no secret is, nothing is replaced. -/
theorem foldl_of_not_infix (h : ∀ s ∈ secrets, ¬ s.toList <:+: text.toList) :
    secrets.foldl (fun acc s ↦ Text.replaced s mask acc) text = text := by
  induction secrets with
  | nil => rfl
  | cons s secrets ih =>
    have hsame : Text.replaced s mask text = text := by
      rw [Text.replaced, Text.replaceAll_of_not_infix (h s List.mem_cons_self),
        String.ofList_toList]
    rw [List.foldl_cons, hsame]
    exact ih fun s hs ↦ h s (List.mem_cons_of_mem _ hs)

/-- The replacements mask occurrences of secrets. -/
theorem masked_foldl {all : List String} (hall : secrets ⊆ all) {cs : List Char}
    (h : Masked all cs text.toList) :
    Masked all cs (secrets.foldl (fun acc s ↦ Text.replaced s mask acc) text).toList := by
  induction secrets generalizing text with
  | nil => exact h
  | cons s secrets ih =>
    obtain ⟨hs, hall⟩ := List.cons_subset.mp hall
    have hfirst : Masked all cs (Text.replaced s mask text).toList := by
      rw [Text.toList_replaced]
      exact h.replaceAll hs
    exact ih hall hfirst

end

/-- A text is shown without the secrets of a command. -/
theorem conceals_redact (hall : ∀ s, s ∈ c.secrets ↔ s ∈ secrets ∧ s ≠ "")
    (hstar : ∀ s ∈ secrets, '*' ∉ s.toList) (text : String) :
    c.Conceals secrets text (c.redact text) := by
  have hmask : ∀ s ∈ c.secrets, mask.toList.Disjoint s.toList := fun s hs ↦ by
    simpa [mask] using hstar s ((hall s).mp hs).1
  have hhidden : ∀ s ∈ c.secrets, ¬ s.toList <:+: (c.redact text).toList := fun s hs ↦
    not_infix_foldl hmask hs ((hall s).mp hs).2
  refine ⟨fun s hs hne ↦ hhidden s ((hall s).mpr ⟨hs, hne⟩), foldl_of_not_infix hhidden,
    fun h ↦ foldl_of_not_infix fun s hs ↦ ?_, masked_foldl (fun s hs ↦ ((hall s).mp hs).1) .refl⟩
  obtain ⟨hs, hne⟩ := (hall s).mp hs
  exact h s hs hne

/-! ### What is shown -/

/-- Whatever a command's secrets are, as long as none has an asterisk: a text is shown without them, and
so are the program and the arguments with blanks between them, where a secret may reach from one
argument into the next. -/
theorem conceals_withSecrets (program : String) (args : List String) (folder : Option Path)
    (secrets : List String) (hstar : ∀ s ∈ secrets, '*' ∉ s.toList) :
    let c := secrets.foldl withSecret ⟨program, args, folder, []⟩
    (∀ text, c.Conceals secrets text (c.redact text)) ∧
      c.Conceals secrets (" ".intercalate (program :: args)) c.display := by
  intro c
  have hc : c = ⟨program, args, folder, secrets.filter (· ≠ "")⟩ := foldl_withSecret _ secrets
  have hall (s : String) : s ∈ c.secrets ↔ s ∈ secrets ∧ s ≠ "" := by simp [hc]
  have hline : c.line = " ".intercalate (program :: args) := by
    rw [line_eq_intercalate, hc]
  refine ⟨conceals_redact hall hstar, ?_⟩
  rw [display, hline]
  exact conceals_redact hall hstar _

/-- Two secrets overlap, and one of them reaches from the program into its argument. -/
theorem conceals_spanning :
    let secrets := ["k e", "ek", ""]
    let c := secrets.foldl withSecret ⟨"seek", ["ek", "x"], none, []⟩
    (∀ s ∈ secrets, '*' ∉ s.toList) ∧ c.display = "see***k x" ∧
      (∀ text, c.Conceals secrets text (c.redact text)) ∧
      c.Conceals secrets (" ".intercalate ["seek", "ek", "x"]) c.display :=
  ⟨by decide, by decide, conceals_withSecrets "seek" ["ek", "x"] none ["k e", "ek", ""] (by decide)⟩

end CodeNav.Command
