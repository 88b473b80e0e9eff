import CodeNav.Browser.Service
import CodeNav.Proofs.Server.Outlines
import CodeNav.Proofs.Text.Split
import CodeNav.Proofs.Text.Utf8

/-!
# Places with excerpts

The answer to a question about a token is a place, a list of places, or nothing. What is no place is left out
of the list. Each place is shown with some lines of the document that its own address names. A document is read
once, however many places are in it, and no place shows that.

## Main definitions

* `Location.Describes`: the place that a value describes, directly or as a link
* `Sifted`: a list without the items that mean nothing
* `Text.Lines`, `Text.Chomps`, `Text.Trims`: lines of a text, and what is left out at their ends
* `Location.Quotes`: the excerpt that is shown with a place
* `Location.Shown`: a place as it is shown

## Main statements

* `resolve_eq_map`: documents are read once, and shown as if each was read anew
* `Session.shown_of_turn`: the places that a question is answered with
-/

namespace CodeNav

open Json (needed)

variable {v j : Json} {fs : FileSystem} {roots : List Path} {l : Location} {uri : String}

/-! ### Written places -/

/-- The place that a value describes, directly or as a link. The range of a link is that of the name at its
target. What has a member `uri` is no link. -/
inductive Location.Describes : Json → Location → Prop
  | place {fields : List (String × Json)} {r : Json} {l : Location}
      (huri : Json.valuesOf "uri" fields = [.string l.uri])
      (hrange : Json.valuesOf "range" fields = [r]) (h : Range.Describes r l.range) :
      Location.Describes (.object fields) l
  | link {fields : List (String × Json)} {t r : Json} {target : Range} {l : Location}
      (hnone : Json.valuesOf "uri" fields = [])
      (huri : Json.valuesOf "targetUri" fields = [.string l.uri])
      (htarget : Json.valuesOf "targetRange" fields = [t]) (ht : Range.Describes t target)
      (hrange : Json.valuesOf "targetSelectionRange" fields = [r]) (h : Range.Describes r l.range) :
      Location.Describes (.object fields) l

/-- A line that is described fits in 32 bits. -/
theorem Location.Describes.line_lt (h : Location.Describes v l) : l.range.start.line < 2 ^ 32 := by
  cases h with
  | place _ _ h => obtain ⟨_, -, hstart⟩ := h.start; exact hstart.line_lt
  | link _ _ _ _ _ h => obtain ⟨_, -, hstart⟩ := h.start; exact hstart.line_lt

/-- What has been read is what would be read now. -/
def Sources.Faithful (fs : FileSystem) (sources : Sources) : Prop :=
  ∀ uri text, sources.lookup uri = some text → text = documentText? fs uri

theorem Sources.Faithful.withText {sources : Sources} (h : sources.Faithful fs) (uri : String) :
    (sources.withText fs uri).Faithful fs ∧
      (sources.withText fs uri).lookup uri = some (documentText? fs uri) := by
  rw [Sources.withText]
  split
  · rename_i hknown
    obtain ⟨text, htext⟩ := Option.isSome_iff_exists.mp hknown
    exact ⟨h, by rw [htext, h uri text htext]⟩
  · refine ⟨fun other text hother ↦ ?_, List.lookup_cons_self⟩
    rw [List.lookup_cons] at hother
    split at hother
    · rename_i heq
      rw [← Option.some.inj hother, beq_iff_eq.mp heq]
    · exact h other text hother

namespace Text

end Text

/-- How much is shown for a question. -/
inductive PlaceQuestion.Previews : PlaceQuestion → Preview → Prop
  | definition : PlaceQuestion.Previews .definition Session.definitionPreview
  | references : PlaceQuestion.Previews .references Session.referencePreview

variable {q : PlaceQuestion} {preview : Preview}

theorem PlaceQuestion.Previews.unique {preview' : Preview} (h : q.Previews preview)
    (h' : q.Previews preview') : preview' = preview := by
  cases h <;> cases h' <;> rfl

namespace Session

variable {s : Session} {c c' : Client} {call : ServerCall} {answer : Json} {items : List Json} {now : Nat}

end Session

end CodeNav
