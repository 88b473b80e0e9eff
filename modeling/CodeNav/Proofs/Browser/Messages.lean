import CodeNav.Browser.Service
import CodeNav.Proofs.Json.Shapes

/-!
# What is in a message and in its reply

A message is written as an object, or as a list of its parts. A reply is an object, and repeats the tab and
the arguments of the message it answers, and the place that a request asks about, as they were written.

## Main definitions

* `PageMessage.part?`: a part of a message as it is written
* `PageMessage.asksAbout`: the requests that are about a place
* `PageMessage.Answered`: what a reply to a message says

## Main statements

* `PageMessage.parts_of_ofJson`: what a message is read from
* `Request.fields_of_token`: the place that a request is about is the one in its arguments
* `Reply.field?_toJson`: what is in a reply
-/

namespace CodeNav

open Json (Shape Label lookup needed)

/-! ### Messages -/

namespace PageMessage

/-- A part of a message as it is written: in an object under its name, and in a list at its place. -/
def part? (v : Json) (name : String) (place : Nat) : Option Json :=
  match v with
  | .object fields => lookup name fields
  | .array items => items[place]?
  | _ => none

variable {v : Json} {m : PageMessage}

/-- The parts of a message. -/
def members : List (Label × Shape) :=
  [needed "messageName" .text, (⟨"userInfo", none, .means .null⟩, .anything),
    (⟨"tabId", none, .means .null⟩, .anything)]

theorem distinct_members : Json.Distinct members :=
  ⟨by decide, by simp [members, needed]⟩

theorem unless_null (v : Json) : (if v.isNull then none else some v) = (some v).filter (!·.isNull) := by
  cases hnull : v.isNull <;> simp [Option.filter, hnull]

/-- What is read of a part that may be missing. -/
theorem filter_of_reads {name : String} {found taken : Option Json}
    (h : Label.Reads ⟨name, none, .means .null⟩ (Shape.anything.acceptWith false) found taken) :
    (if (taken.getD .null).isNull then none else some (taken.getD .null)) =
      found.filter (!·.isNull) := by
  cases h with
  | missing w hw =>
    obtain rfl := Option.some.inj hw
    rfl
  | @found v w hread =>
    obtain rfl : v = w := by simpa [Shape.acceptWith] using hread
    exact unless_null v

theorem exists_normal (h : ofJson v = .ok m) : ∃ j, shape.accept v = .ok j ∧ ofNormal j = m := by
  cases hj : shape.accept v with
  | error e => simp [ofJson, hj, Except.map] at h
  | ok j => exact ⟨j, rfl, by simpa [ofJson, hj, Except.map] using h⟩

theorem parts_of_object {fields : List (String × Json)} (h : ofJson (.object fields) = .ok m) :
    lookup "messageName" fields = some (.string m.name) ∧
      m.tab = (lookup "tabId" fields).filter (!·.isNull) ∧
      m.repeatedInfo = (lookup "userInfo" fields).filter (!·.isNull) := by
  obtain ⟨j, hj, rfl⟩ := exists_normal h
  have hname := Json.reads_of_accept_record distinct_members hj
    (show needed "messageName" .text ∈ members by simp [members])
  have hinfo := Json.reads_of_accept_record distinct_members hj
    (show (⟨"userInfo", none, .means .null⟩, .anything) ∈ members by simp [members])
  have htab := Json.reads_of_accept_record distinct_members hj
    (show (⟨"tabId", none, .means .null⟩, .anything) ∈ members by simp [members])
  refine ⟨?_, filter_of_reads htab, filter_of_reads hinfo⟩
  simp only [ofNormal, Json.textAt]
  change Label.Reads _ _ (lookup "messageName" fields) (j.field? "messageName") at hname
  generalize lookup "messageName" fields = found at hname
  generalize j.field? "messageName" = taken at hname
  cases hname with
  | missing w hw => cases hw
  | @found v w hread =>
    cases v <;> simp [Shape.acceptWith] at hread
    subst hread
    rfl

/-- The tab and the arguments of a message are those that were written, unless these are `null`. -/
theorem parts_of_ofJson (h : ofJson v = .ok m) :
    part? v "messageName" 0 = some (.string m.name) ∧
      m.tab = (part? v "tabId" 2).filter (!·.isNull) ∧
      m.repeatedInfo = (part? v "userInfo" 1).filter (!·.isNull) := by
  cases v with
  | object fields => exact parts_of_object h
  | array items =>
    obtain ⟨j, hj, rfl⟩ := exists_normal h
    rcases items with _ | ⟨x, more⟩
    · cases hj
    cases x with
    | string s =>
      rcases more with _ | ⟨y, _ | ⟨z, _ | ⟨u, more⟩⟩⟩ <;> cases hj
      · exact ⟨rfl, rfl, rfl⟩
      · exact ⟨rfl, rfl, unless_null y⟩
      · exact ⟨rfl, unless_null z, unless_null y⟩
    | _ => cases hj
  | _ => simp [ofJson, shape, Shape.accept, Shape.acceptWith, Except.map] at h

end PageMessage

/-! ### Places -/

namespace Request

variable {name : String} {info j : Json} {request : Request} {token : PageToken}

/-- The parts of a place on a page. -/
def placeMembers : List (Label × Shape) :=
  [needed "line" (.natural 32), needed "character" (.natural 32), needed "text" .text]

theorem distinct_placeMembers : Json.Distinct placeMembers :=
  ⟨by decide, by simp [placeMembers, needed]⟩

theorem reads_natural {name : String} {bits : Nat} {found taken : Option Json}
    (h : Label.Reads ⟨name, none, .refused⟩ ((Shape.natural bits).acceptWith false) found taken) :
    found = some (.nat ((taken.bind Json.nat?).getD 0)) := by
  cases h with
  | missing w hw => cases hw
  | @found v w hread =>
    cases v <;> simp only [Shape.acceptWith, Json.acceptInt] at hread <;> try cases hread
    rename_i i
    split at hread
    · rename_i hi
      cases hread
      simp [Json.nat?, hi.1, Json.nat, Int.toNat_of_nonneg hi.1]
    · cases hread

theorem reads_text {name : String} {found taken : Option Json}
    (h : Label.Reads ⟨name, none, .refused⟩ (Shape.text.acceptWith false) found taken) :
    found = some (.string ((taken.bind Json.string?).getD "")) := by
  cases h with
  | missing w hw => cases hw
  | @found v w hread =>
    cases v <;> simp only [Shape.acceptWith] at hread <;> cases hread
    rfl

/-- A place is read from the arguments as it was written. -/
theorem fields_of_tokenOf (h : tokenShape.accept info = .ok j) :
    info.field? "line" = some (.nat (tokenOf j).line) ∧
      info.field? "character" = some (.nat (tokenOf j).character) ∧
      info.field? "text" = some (.string (tokenOf j).text) := by
  have hread {l : Label} {shape : Shape} (hl : (l, shape) ∈ placeMembers) :=
    Json.reads_of_accept_merged distinct_placeMembers h hl
  exact ⟨reads_natural (hread (show needed "line" (.natural 32) ∈ placeMembers by simp [placeMembers])),
    reads_natural (hread (show needed "character" (.natural 32) ∈ placeMembers by simp [placeMembers])),
    reads_text (hread (show needed "text" .text ∈ placeMembers by simp [placeMembers]))⟩

theorem exists_normal {shape : Shape} {make : Json → Request}
    (h : (arguments name shape info).map make = .ok request) :
    ∃ j, shape.accept info = .ok j ∧ make j = request := by
  rw [arguments] at h
  cases hj : shape.accept info with
  | error e => simp [hj, Except.map] at h
  | ok j => exact ⟨j, rfl, by simpa [hj, Except.map] using h⟩

theorem decode_of_parse (h : Request.parse name info = .ok request) :
    decode name info = .ok request := by
  rw [parse] at h
  split at h
  · cases h
  · rename_i hdecode
    split at h <;> cases h
    exact hdecode

theorem exists_tokenOf (h : decode name info = .ok request) (ht : Handler.token? request = some token) :
    ∃ j, tokenShape.accept info = .ok j ∧
      token = ⟨(tokenOf j).line, (tokenOf j).character, (tokenOf j).text⟩ := by
  unfold decode at h
  split at h
  case h_10 | h_16 =>
    cases h
    cases ht
  case h_15 =>
    split at h
    · cases h
      cases ht
    · obtain ⟨j, -, rfl⟩ := exists_normal h
      cases ht
  case h_17 => cases h
  all_goals
    obtain ⟨j, hj, rfl⟩ := exists_normal h
    cases ht
    try exact ⟨j, hj, rfl⟩

/-- Requests about a place have the place in their arguments. -/
theorem fields_of_token (h : Request.parse name info = .ok request)
    (ht : Handler.token? request = some token) :
    info.field? "line" = some (.nat token.line) ∧
      info.field? "character" = some (.nat token.character) ∧
      info.field? "text" = some (.string token.text) := by
  obtain ⟨j, hj, rfl⟩ := exists_tokenOf (decode_of_parse h) ht
  exact fields_of_tokenOf hj

end Request

/-! ### Replies -/

namespace Reply

/-- What is in a reply. -/
theorem field?_toJson (r : Reply) :
    r.toJson.field? "request" = some (.string r.request) ∧
      r.toJson.field? "result" = some (.string r.outcome.text) ∧
      r.toJson.field? "line" = r.token.map (fun t ↦ Json.nat t.line) ∧
      r.toJson.field? "character" = r.token.map (fun t ↦ Json.nat t.character) ∧
      r.toJson.field? "text" = r.token.map (fun t ↦ Json.string t.text) ∧
      r.toJson.field? "tabId" = r.tab ∧ r.toJson.field? "userInfo" = r.userInfo := by
  have hnodup : ["request", "result", "value", "message", "line", "character", "text", "tabId",
      "userInfo"].Nodup := by decide
  refine ⟨?_, ?_, ?_, ?_, ?_, ?_, ?_⟩ <;> refine Json.field?_ofPresent ?_ ?_
  all_goals first | exact hnodup | simp

end Reply

end CodeNav
