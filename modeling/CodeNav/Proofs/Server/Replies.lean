import CodeNav.Proofs.Server.Post

/-!
# Requests of a server, and what they are answered with

A message of a server that has a method and an id asks the client for something. Some methods a client knows;
for any other it says so. An answer bears the id of the request as it was, whatever it is.

## Main definitions

* `Client.Asks`: the messages that ask for an answer
* `Client.Content`: what the answer says
* `Client.Replies`: the answers to messages, one after the other

## Main statements

* `Client.Handles.replies`: a message makes the client owe its answer, if it asks for one
* `Client.goes_readerTurn`: what the reader does with messages and answers
-/

namespace CodeNav

namespace Client

variable {c c' : Client} {m id answer : Json} {method uri name : String}
  {heard more answers others : List Json}

/-- The method of a message, if it is a text. -/
def methodOf? (m : Json) : Option String := (m.field? "method").bind Json.string?

/-- A message asks for an answer: it has a method that is a text, and an id that is not null. -/
structure Asks (m : Json) (method : String) (id : Json) : Prop where
  hmethod : m.field? "method" = some (.string method)
  hid : m.field? "id" = some id
  hnull : id ≠ .null

theorem Asks.method_eq {m id : Json} {method : String} (h : Asks m method id) :
    (m.field? "method").bind Json.string? = some method := by
  rw [h.hmethod]
  rfl

/-- The number of items in the parameters of a message. -/
inductive Items (m : Json) : Nat → Prop
  | some {params : Json} {items : List Json} (hparams : m.field? "params" = some params)
      (hitems : params.field? "items" = some (.array items)) : Items m items.length
  | none (h : ∀ params items, m.field? "params" = some params →
      params.field? "items" ≠ some (.array items)) : Items m 0

/-- The methods of requests that a client only acknowledges. -/
def acknowledged : List String :=
  ["window/workDoneProgress/create", "client/registerCapability", "client/unregisterCapability",
    "window/showMessageRequest"]

/-- What an answer says, for a client with a folder: the member with the result, or with an error. -/
inductive Content (uri name : String) (m : Json) : String → String × Json → Prop
  | configuration {n : Nat} (h : Items m n) :
      Content uri name m "workspace/configuration" ("result", .array (List.replicate n .null))
  | folders : Content uri name m "workspace/workspaceFolders"
      ("result", .array [.ofFields [("uri", .string uri), ("name", .string name)]])
  | acknowledged {method : String} (h : method ∈ acknowledged) :
      Content uri name m method ("result", .null)
  | unknown {method : String}
      (h : method ∉ "workspace/configuration" :: "workspace/workspaceFolders" :: Client.acknowledged) :
      Content uri name m method ("error", .ofFields
        [("code", .int (-32601)), ("message", .string ("method not found: " ++ method))])

/-- The answers to messages, for each that asks for one and in their order. -/
inductive Replies (uri name : String) : List Json → List Json → Prop
  | nil : Replies uri name [] []
  | ask {m id : Json} {method : String} {content : String × Json} {heard answers : List Json}
      (hasks : Asks m method id) (hcontent : Content uri name m method content)
      (h : Replies uri name heard answers) :
      Replies uri name (m :: heard)
        (.ofFields [("jsonrpc", .string "2.0"), ("id", id), content] :: answers)
  | other {m : Json} {heard answers : List Json} (hnot : ∀ method id, ¬ Asks m method id)
      (h : Replies uri name heard answers) : Replies uri name (m :: heard) answers

theorem Replies.append (h : Replies uri name heard answers) (hmore : Replies uri name more others) :
    Replies uri name (heard ++ more) (answers ++ others) := by
  induction h with
  | nil => exact hmore
  | ask hasks hcontent _ ih => exact .ask hasks hcontent ih
  | other hnot _ ih => exact .other hnot ih

theorem methodOf?_answer {content : String × Json} (h : Content uri name m method content) :
    methodOf? (.ofFields [("jsonrpc", .string "2.0"), ("id", id), content]) = none := by
  cases h <;> simp [methodOf?, Json.ofFields, Json.field?, Json.lookup_insertField, Json.lookup]

/-- Answers have no method. -/
theorem Replies.methodOf? (h : Replies uri name heard answers) (ha : answer ∈ answers) :
    methodOf? answer = none := by
  induction h with
  | nil => cases ha
  | ask hasks hcontent _ ih =>
    rcases List.mem_cons.mp ha with rfl | ha
    · exact methodOf?_answer hcontent
    · exact ih ha
  | other _ _ ih => exact ih ha

/-! ### Answers -/

theorem items_length (m : Json) : Items m
    ((((m.field? "params").bind fun p ↦ p.field? "items").bind Json.array?).getD []).length := by
  rcases hparams : m.field? "params" with _ | params
  · exact .none fun params items h ↦ absurd (hparams.symm.trans h) (by simp)
  · rcases hitems : (params.field? "items").bind Json.array? with _ | items
    · simp only [Option.bind_some, hitems, Option.getD_none, List.length_nil]
      refine .none fun params' items h hitems' ↦ ?_
      obtain rfl := Option.some.inj (hparams.symm.trans h)
      simp [hitems', Json.array?] at hitems
    · obtain ⟨j, hj, harray⟩ := Option.bind_eq_some_iff.mp hitems
      simp only [Option.bind_some, hitems, Option.getD_some]
      cases j with
      | array items' =>
        obtain rfl := Option.some.inj harray
        exact .some hparams hj
      | _ => cases harray

/-- The answer to a request says what it should. -/
theorem exists_content (uri name : String) (m id : Json) (method : String) :
    ∃ content, Content uri name m method content ∧
      answerMessage id method (m.field? "params") uri name =
        .ofFields [("jsonrpc", .string "2.0"), ("id", id), content] := by
  have hresult {result : Json} (hfor : answerFor method (m.field? "params") uri name = some result)
      (hcontent : Content uri name m method ("result", result)) :
      ∃ content, Content uri name m method content ∧
        answerMessage id method (m.field? "params") uri name =
          .ofFields [("jsonrpc", .string "2.0"), ("id", id), content] :=
    ⟨_, hcontent, by simp only [answerMessage, hfor]⟩
  by_cases hknown :
      method ∈ "workspace/configuration" :: "workspace/workspaceFolders" :: Client.acknowledged
  · simp only [acknowledged, List.mem_cons, List.not_mem_nil, or_false] at hknown
    rcases hknown with rfl | rfl | rfl | rfl | rfl | rfl
    · refine hresult ?_ (.configuration (items_length m))
      simp [answerFor, List.map_const']
    · exact hresult rfl .folders
    all_goals exact hresult rfl (.acknowledged (by decide))
  · refine ⟨_, .unknown hknown, ?_⟩
    have hfor : answerFor method (m.field? "params") uri name = none := by
      simp only [acknowledged, List.mem_cons, List.not_mem_nil, or_false, not_or] at hknown
      simp [answerFor, hknown]
    simp only [answerMessage, hfor]

theorem isNull_eq_true_iff : id.isNull = true ↔ id = .null := by
  cases id <;> simp [Json.isNull]

/-- The answer that the reader owes the server. -/
def owed (c : Client) : List Json := c.draft?.toList.map Note.message

/-- What a client that owes no answer owes after a message. -/
theorem Handles.replies (h : c.Handles m c') (hdraft : c.draft? = none) :
    Replies c.rootUri c.rootName [m] c'.owed := by
  have hquiet {c' : Client} (hnot : ∀ method id, ¬ Asks m method id) (hsame : c'.draft? = c.draft?) :
      Replies c.rootUri c.rootName [m] c'.owed := by
    rw [owed, hsame, hdraft]
    exact .other hnot .nil
  cases h with
  | @asks method id hmethod hid hnull =>
    obtain ⟨j, hfield, hj⟩ := Option.bind_eq_some_iff.mp hmethod
    obtain ⟨content, hcontent, hanswer⟩ := exists_content c.rootUri c.rootName m id method
    have hasks : Asks m method id := by
      refine ⟨?_, hid, fun heq ↦ ?_⟩
      · cases j <;> simp_all [Json.string?]
      · simp [isNull_eq_true_iff.mpr heq] at hnull
    have hreplies := Replies.ask hasks hcontent .nil
    rwa [← hanswer] at hreplies
  | answers hanswers =>
    refine hquiet (fun method id hasks ↦ ?_) rfl
    rw [answered?_of_method hasks.method_eq] at hanswers
    cases hanswers
  | ignores _ hnone =>
    refine hquiet (fun method id hasks ↦ ?_) rfl
    rcases hnone with hmethod | hid
    · rw [hasks.method_eq] at hmethod
      cases hmethod
    · exact hasks.hnull (hid id hasks.hid)

/-! ### The reader -/

theorem draft?_of_message (h : c.reading = .message m) : c.draft? = none := by
  cases hanswering : c.answering with
  | none => simp [draft?, hanswering]
  | some a => simp [reading, hanswering] at h

/-- With a message, the reader owes its answer. -/
theorem replies_readerTurn (h : c.readerTurn = some c') (hm : c.reading = .message m) :
    Replies c.rootUri c.rootName [m] c'.owed := by
  obtain ⟨rest, decoder, rfl⟩ := readerTurn_of_message h hm
  have hdraft := draft?_of_message hm
  exact (handles { c with wire := { c.wire with incoming := rest }, decoder := decoder } m).replies hdraft

/-- Without a message, the reader owes nothing. -/
theorem draft?_readerTurn (h : c.readerTurn = some c') (hm : ∀ m, c.reading ≠ .message m) :
    c'.draft? = none := by
  have hreads := (reads_of_readerTurn h).2
  generalize c.reading = reading at hreads hm
  cases hreads with
  | answers => rfl
  | hears => exact absurd rfl (hm _)
  | waits hanswering | breaks hanswering | ends hanswering => simp [close, draft?, hanswering]

/-- A client that owes an answer after a turn of the reader is open. -/
theorem closed_readerTurn (h : c.readerTurn = some c') (howed : c'.draft? ≠ none) : c'.closed = false := by
  obtain ⟨hopen, c₀, hc₀, rfl⟩ := readerTurn_eq_some h
  cases hm : c.reading with
  | message m =>
    rw [after, (c₀.handles m).closed, hc₀.closed]
    exact hopen
  | _ => exact absurd (draft?_readerTurn h (by simp [hm])) howed

/-! ### The folder of a client -/

/-- The address and the name of the folder that a client answers with. -/
def folder (c : Client) : String × String := (c.rootUri, c.rootName)

theorem folder_write {ticket : Nat} {message : Json} {r : Except SessionError Unit}
    (h : c.write? ticket message = some (r, c')) : c'.folder = c.folder := by
  cases writes_of_write h <;> rfl

theorem Handles.folder (h : c.Handles m c') : c'.folder = c.folder := by
  cases h <;> rfl

theorem folder_readerTurn (h : c.readerTurn = some c') : c'.folder = c.folder := by
  have hreads := (reads_of_readerTurn h).2
  generalize c.reading = reading at hreads
  cases hreads with
  | answers _ hwrite => exact (folder_write hwrite :)
  | hears => exact (handles _ _).folder
  | waits | breaks | ends => rfl

end Client

namespace ServerCall

variable {c c' : Client} {call call' : ServerCall} {now : Nat}

theorem folder_start {method : String} {params : Json} {limit : Option Nat}
    (h : start method params limit c = .ok (call, c')) : c'.folder = c.folder := by
  simp only [start] at h
  split at h
  · cases h
  · obtain ⟨-, rfl⟩ := Prod.mk.inj (Except.ok.inj h)
    rfl

theorem folder_moved (h : call.turn now c = .moved call' c') : c'.folder = c.folder := by
  cases call with
  | writing id ticket m l message =>
    simp only [turn] at h
    split at h
    · cases h
    · cases h
    · rename_i hwrite
      obtain ⟨-, rfl⟩ := Turn.moved.inj h
      exact Client.folder_write hwrite
  | awaiting id m l deadline =>
    simp only [turn] at h
    split at h <;> grind

theorem folder_finished {r : Except SessionError Json} (h : call.turn now c = .finished r c') :
    c'.folder = c.folder := by
  cases call with
  | writing id ticket m l message =>
    simp only [turn] at h
    split at h
    · cases h
    · rename_i hwrite
      obtain ⟨-, rfl⟩ := Turn.finished.inj h
      exact (Client.folder_write hwrite :)
    · cases h
  | awaiting id m l deadline =>
    have hforget : (forget c id).folder = c.folder := rfl
    simp only [turn] at h
    split at h <;> grind

theorem folder_drop (call : ServerCall) (c : Client) : (call.drop c).folder = c.folder := by
  cases call <;> rfl

end ServerCall

namespace Note

variable {c c' : Client} {n : Note}

theorem folder_start {method : String} {params : Json} (h : start method params c = .ok (n, c')) :
    c'.folder = c.folder := by
  obtain ⟨-, -, rfl⟩ := Session.note_start_eq_ok h
  rfl

theorem folder_turn {r : Except SessionError Unit} (h : n.turn c = .finished r c') :
    c'.folder = c.folder := by
  simp only [turn] at h
  split at h
  · cases h
  · rename_i hwrite
    obtain ⟨-, rfl⟩ := Turn.finished.inj h
    exact Client.folder_write hwrite

end Note

end CodeNav
