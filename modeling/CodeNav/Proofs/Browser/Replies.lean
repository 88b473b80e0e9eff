import CodeNav.Proofs.Browser.Handlers
import CodeNav.Proofs.Browser.Messages

/-!
# What handlers reply

A handler reads the request of its message in its first turn, and does not read it again: the later phases
carry the request as long as the reply depends on it. The reply has the name of the message, or that of the
symbols of a document when this was opened, and the place that the message is about.

## Main definitions

* `Reply.Suits`: a reply to a request
* `HandlerPhase.Knows`: what a phase carries of a request
* `Handler.Sound`: a handler has the request of its message
* `PageMessage.Answered`: a reply repeats the address, the name and the place of a message

## Main statements

* `Handler.suits_phaseTurn`: every turn of a handler keeps to the request
* `Handler.sound_of_moved`, `Handler.answered_of_finished`: so the reply is one to the message
* `PageMessage.Answered.repeats`: how this is written
-/

namespace CodeNav

/-! ### Requests -/

namespace Request

variable {name : String} {info : Json} {r : Request}

/-- A request that is answered under its own name, and is not about a place. -/
def Plain (r : Request) : Prop :=
  Handler.token? r = none ∧ ∀ name, Handler.answeredAs name r = name

/-- The names of the requests about a place. -/
def placeNames : List String := ["hover", "definition", "references", "documentHighlight"]

/-- Which requests have which names. -/
theorem names_of_decode (h : decode name info = .ok r) :
    ((Handler.token? r).isSome ↔ name ∈ placeNames) ∧
      Handler.answeredAs name r = if name = "didOpen" then "documentSymbol" else name := by
  unfold decode at h
  split at h
  case h_10 | h_16 =>
    cases h
    decide
  case h_15 =>
    split at h
    · cases h
      decide
    · obtain ⟨j, -, rfl⟩ := exists_normal h
      exact ⟨by simp [Handler.token?, placeNames], by simp [Handler.answeredAs]⟩
  case h_17 => cases h
  all_goals
    obtain ⟨j, -, rfl⟩ := exists_normal h
    exact ⟨by simp [Handler.token?, placeNames], by simp [Handler.answeredAs]⟩

end Request

/-! ### Replies to a request -/

/-- A reply to a request under a name. -/
structure Reply.Suits (name : String) (r : Request) (reply : Reply) : Prop where
  request : reply.request = if reply.outcome = .success then Handler.answeredAs name r else name
  token : reply.token = Handler.token? r

theorem Reply.suits_of_plain {name : String} {r : Request} {reply : Reply} (h : r.Plain)
    (hname : reply.request = name) (htoken : reply.token = none) : reply.Suits name r where
  request := by rw [h.2, ite_self, hname]
  token := by rw [h.1, htoken]

/-- What a phase carries of the request that is handled. -/
def HandlerPhase.Knows (r : Request) : HandlerPhase → Prop
  | .arrived => False
  | .loading r' => r' = r ∧ Handler.token? r = none
  | .loaded r' _ => r' = r ∧ Handler.token? r = none
  | .calling r' _ _ _ => r' = r
  | .synchronizing r' _ _ => r' = r ∧ r.Plain
  | _ => r.Plain

namespace Handler

/-- A turn keeps to a request. -/
inductive TurnSuits (name : String) (r : Request) : HandlerTurn → Prop
  | parked {t : Option Nat} : TurnSuits name r (.parked t)
  | moved {phase : HandlerPhase} {s : ServiceState} (h : phase.Knows r) : TurnSuits name r (.moved phase s)
  | finished {reply : Reply} {s : ServiceState} (h : reply.Suits name r) :
      TurnSuits name r (.finished reply s)

variable {v : Service} {now strand : Nat} {name : String} {r : Request} {s : ServiceState}

theorem turnSuits_map {φ α : Type} {turn : Turn ServiceState φ α} {phase : φ → HandlerPhase}
    {finish : α → ServiceState → HandlerTurn} (hphase : ∀ p, (phase p).Knows r)
    (hfinish : ∀ a s, TurnSuits name r (finish a s)) : TurnSuits name r (turn.map phase finish) := by
  cases turn with
  | parked => exact .parked
  | moved p => exact .moved (hphase p)
  | finished a s => exact hfinish a s

theorem suits_sessionReply (result : SessionResult) : (sessionReply name r result).Suits name r := by
  unfold sessionReply
  cases result <;> cases htoken : token? r <;> constructor <;> simp [htoken, Reply.about, Reply.success, Reply.error, Reply.plain]

theorem suits_error (h : r.Plain) (message : String) : (Reply.error name message).Suits name r :=
  Reply.suits_of_plain h rfl rfl

theorem suits_pageReply (h : r.Plain) (result : SyncResult) : (pageReply name result).Suits name r := by
  unfold pageReply
  split
  · exact Reply.suits_of_plain h rfl rfl
  · split <;> exact Reply.suits_of_plain h rfl rfl

theorem suits_infoReply (h : r.Plain) (result : Except SyncError CheckoutInfo) :
    (infoReply name result).Suits name r := by
  cases result <;> exact Reply.suits_of_plain h rfl rfl

theorem suits_removalReply (h : r.Plain) (result : Except SyncError Path) :
    (removalReply name result).Suits name r := by
  cases result <;> exact Reply.suits_of_plain h rfl rfl

theorem suits_makeCalls (n : Nat) (calls : List SessionCall) (last : SessionResult) (s : ServiceState) :
    TurnSuits name r (makeCalls name r n calls last s) := by
  induction calls generalizing last s with
  | nil => exact .finished (suits_sessionReply last)
  | cons call rest ih =>
    simp only [makeCalls]
    split
    · exact .moved rfl
    · exact .finished (suits_sessionReply _)
    · exact ih _ _

theorem suits_callExisting (repository : RepositoryArgs) (call : SessionCall) :
    TurnSuits name r (callExisting name r repository call s) := by
  simp only [callExisting]
  split
  · exact .finished (suits_sessionReply _)
  · exact suits_makeCalls ..

theorem suits_inspect (h : r.Plain) (url : String) : TurnSuits name r (inspect v name url s) := by
  delta inspect
  split
  · exact .finished (suits_error h _)
  · exact .moved h

theorem suits_evict (h : r.Plain) (one : Bool) (call : EvictionCall) :
    TurnSuits name r (evict name one call s) := by
  simp only [evict]
  split
  · exact .moved h
  · exact .finished (Reply.suits_of_plain h rfl rfl)

theorem suits_watch (h : r.Plain) (a : ProgressArgs) : TurnSuits name r (watch v now name a s) := by
  simp only [watch]
  split
  · exact .finished (Reply.suits_of_plain h rfl rfl)
  · split
    · exact .moved h
    · exact .finished (Reply.suits_of_plain h rfl rfl)

theorem suits_synchronized (h : r.Plain) (result : SyncResult) (s : ServiceState) :
    TurnSuits name r (synchronized v name r result s) := by
  simp only [synchronized]
  split
  · exact suits_inspect h _
  · exact .finished (suits_pageReply h _)

theorem suits_synchronize (h : r.Plain) (url : String) (force : Bool) (settings : Settings) :
    TurnSuits name r (synchronize v name r url force settings s) := by
  delta synchronize
  split
  · exact .moved ⟨rfl, h⟩
  · exact suits_synchronized h _ _

theorem suits_syncTurn (h : r.Plain) (news : SyncNews) (call : Synchronization) (s : ServiceState) :
    TurnSuits name r (syncTurn v now name r news call s) :=
  turnSuits_map (fun _ ↦ ⟨rfl, h⟩) fun _ _ ↦ suits_synchronized h _ _

theorem suits_removalTurn (h : r.Plain) (news : SyncNews) (call : Removal) (s : ServiceState) :
    TurnSuits name r (removalTurn name news call s) :=
  turnSuits_map (fun _ ↦ h) fun _ _ ↦ .finished (suits_removalReply h _)

theorem suits_saveTurn (h : r.Plain) (settings : Settings) (step : SettingsFile.SaveStep) :
    TurnSuits name r (saveTurn v name settings step s) := by
  simp only [saveTurn]
  split
  · exact .finished (suits_error h _)
  · split
    · exact .moved h
    · exact .finished (Reply.suits_of_plain h rfl rfl)

theorem suits_passWord (key : RepositoryKey) (eviction : Option Eviction)
    {phase : Option Eviction → HandlerPhase} {goOn : ServiceState → HandlerTurn}
    (hphase : ∀ e, (phase e).Knows r) (hgoOn : ∀ s, TurnSuits name r (goOn s)) :
    TurnSuits name r (passWord now key eviction phase goOn s) :=
  turnSuits_map (fun _ ↦ hphase _) fun _ ↦ hgoOn

/-- A request that begins. -/
theorem suits_start : TurnSuits name r (start v now name r s) := by
  have hplain {r : Request} (htoken : token? r = none) (hname : ∀ name, answeredAs name r = name) :
      r.Plain := ⟨htoken, hname⟩
  cases r <;> (delta start; dsimp only)
  case openPage | didOpen | settings | updateSettings | checkoutRepository => exact .moved ⟨rfl, rfl⟩
  case documentSymbol | shutdown => exact suits_callExisting ..
  case hover | definition | references | documentHighlight => exact suits_callExisting ..
  case exit | reset => exact suits_evict (hplain rfl fun _ ↦ rfl) _ _
  case repository url => exact suits_inspect (hplain rfl fun _ ↦ rfl) url
  case buildProgress a => exact suits_watch (hplain rfl fun _ ↦ rfl) a
  case deleteRepository url =>
    split
    · exact .moved (hplain rfl fun _ ↦ rfl)
    · exact .finished (suits_removalReply (hplain rfl fun _ ↦ rfl) _)

/-- A request whose settings were read. -/
theorem suits_settingsRead (settings : Except SettingsError Settings) (hr : token? r = none) :
    TurnSuits name r (settingsRead v name r settings s) := by
  have hplain {r : Request} (htoken : token? r = none) (hname : ∀ name, answeredAs name r = name) :
      r.Plain := ⟨htoken, hname⟩
  simp only [settingsRead]
  split
  · split
    · split
      · exact .finished (suits_error (hplain rfl fun _ ↦ rfl) _)
      · exact suits_synchronize (hplain rfl fun _ ↦ rfl) _ _ _
    · exact .finished (Reply.suits_of_plain (hplain rfl fun _ ↦ rfl) rfl rfl)
  · exact suits_makeCalls ..
  · exact suits_synchronize (hplain rfl fun _ ↦ rfl) _ _ _
  · exact .finished ⟨rfl, hr.symm⟩
  · split
    · exact .moved (hplain rfl fun _ ↦ rfl)
    · exact .moved (hplain rfl fun _ ↦ rfl)
  · rename_i hother _ _
    refine .finished (Reply.suits_of_plain (hplain hr fun name ↦ ?_) rfl rfl)
    cases r <;> simp_all [answeredAs]

/-- Every turn of a handler keeps to the request, once it is known. -/
theorem suits_phaseTurn {news : HandlerNews} {m : PageMessage} {phase : HandlerPhase} (h : phase.Knows r) :
    TurnSuits m.name r (phaseTurn v now strand news m phase s) := by
  cases phase with
  | arrived => cases h
  | loading =>
    simp only [phaseTurn]
    exact .moved h
  | loaded request settings =>
    obtain ⟨rfl, htoken⟩ := h
    simp only [phaseTurn]
    exact suits_settingsRead settings htoken
  | calling request n phase rest =>
    obtain rfl : request = r := h
    simp only [phaseTurn]
    refine turnSuits_map (fun _ ↦ rfl) fun result s ↦ ?_
    split
    · exact .finished (suits_sessionReply _)
    · exact suits_makeCalls ..
  | synchronizing request call eviction =>
    obtain ⟨rfl, hplain⟩ := h
    simp only [phaseTurn]
    split
    · exact suits_passWord _ _ (fun _ ↦ ⟨rfl, hplain⟩) (suits_syncTurn hplain _ _)
    · exact suits_syncTurn hplain _ _ s
    · exact suits_syncTurn hplain _ _ s
  | removing call eviction =>
    simp only [phaseTurn]
    split
    · exact suits_passWord _ _ (fun _ ↦ h) (suits_removalTurn h _ _)
    · exact suits_removalTurn h _ _ s
  | inspecting path =>
    simp only [phaseTurn]
    exact .finished (suits_infoReply h _)
  | evicting one e =>
    simp only [phaseTurn]
    exact turnSuits_map (fun _ ↦ h) fun _ _ ↦ .finished (Reply.suits_of_plain h rfl rfl)
  | watching w =>
    simp only [phaseTurn]
    exact turnSuits_map (fun _ ↦ h) fun _ _ ↦ .finished (Reply.suits_of_plain h rfl rfl)
  | locating settings =>
    simp only [phaseTurn]
    split
    · exact .moved h
    · exact .parked
  | saving settings step =>
    simp only [phaseTurn]
    exact suits_saveTurn h settings step

/-! ### Replies to a message -/

/-- A handler has the request of its message. -/
def Sound (h : Handler) : Prop :=
  h.phase = .arrived ∨
    ∃ r, Request.parse h.message.name h.message.userInfo = .ok r ∧ h.phase.Knows r

end Handler

namespace PageMessage

/-- A reply repeats the address, the name and the place of a message. -/
structure Answered (m : PageMessage) (reply : Reply) : Prop where
  tab : reply.tab = m.tab
  userInfo : reply.userInfo = m.repeatedInfo
  request : reply.request =
    if m.name = "didOpen" ∧ reply.outcome = .success then "documentSymbol" else m.name
  token : reply.token = (Request.parse m.name m.userInfo).toOption.bind Handler.token?

/-- What is written of a reply repeats a message: its tab and its arguments, its name, and the place that it
is about when it is a request about a place. -/
structure Repeated (m : PageMessage) (v : Json) : Prop where
  tab : v.field? "tabId" = m.tab
  userInfo : v.field? "userInfo" = m.repeatedInfo
  opened : m.name = "didOpen" → v.field? "result" = some (.string "success") →
    v.field? "request" = some (.string "documentSymbol")
  request : ¬ (m.name = "didOpen" ∧ v.field? "result" = some (.string "success")) →
    v.field? "request" = some (.string m.name)
  place : m.name ∈ Request.placeNames → ∀ r, Request.parse m.name m.userInfo = .ok r →
    ∀ part ∈ ["line", "character", "text"],
      ∃ w, m.userInfo.field? part = some w ∧ v.field? part = some w
  nowhere : (m.name ∈ Request.placeNames → ∀ r, Request.parse m.name m.userInfo ≠ .ok r) →
    ∀ part ∈ ["line", "character", "text"], v.field? part = none

variable {m : PageMessage} {reply : Reply} {r : Request}

theorem answered_of_suits (hparse : Request.parse m.name m.userInfo = .ok r)
    (h : reply.Suits m.name r) : m.Answered (reply.addressed m.tab m.repeatedInfo) where
  tab := rfl
  userInfo := rfl
  request := by
    have hname := (Request.names_of_decode (Request.decode_of_parse hparse)).2
    change reply.request = if _ ∧ reply.outcome = .success then _ else _
    rw [h.request, hname]
    by_cases hsuccess : reply.outcome = .success <;> simp [hsuccess]
  token := by
    rw [hparse]
    exact h.token

theorem answered_error {e : Request.Error} (hparse : Request.parse m.name m.userInfo = .error e)
    (message : String) :
    m.Answered ((Reply.error m.name message).addressed m.tab m.repeatedInfo) where
  tab := rfl
  userInfo := rfl
  request := by simp [Reply.addressed, Reply.error, Reply.plain]
  token := by
    rw [hparse]
    rfl

/-- A reply to a message is written so. -/
theorem Answered.repeated (h : m.Answered reply) : m.Repeated reply.toJson := by
  obtain ⟨hrequest, hresult, hline, hcharacter, htext, htab, hinfo⟩ := Reply.field?_toJson reply
  have houtcome : reply.toJson.field? "result" = some (.string "success") ↔ reply.outcome = .success := by
    rw [hresult]
    cases reply.outcome <;> simp [Outcome.text]
  refine ⟨htab.trans h.tab, hinfo.trans h.userInfo, fun hopen hsuccess ↦ ?_, fun hnot ↦ ?_,
    fun hplace r hparse ↦ ?_, fun hnone ↦ ?_⟩
  · rw [hrequest, h.request, if_pos ⟨hopen, houtcome.mp hsuccess⟩]
  · rw [houtcome] at hnot
    rw [hrequest, h.request, if_neg hnot]
  · have hnames := (Request.names_of_decode (Request.decode_of_parse hparse)).1
    obtain ⟨token, htoken⟩ := Option.isSome_iff_exists.mp (hnames.mpr hplace)
    obtain ⟨hl, hc, ht⟩ := Request.fields_of_token hparse htoken
    have hsome : reply.token = some token := by rw [h.token, hparse]; exact htoken
    rw [hsome] at hline hcharacter htext
    simp only [List.mem_cons, List.not_mem_nil, or_false]
    rintro part (rfl | rfl | rfl)
    · exact ⟨_, hl, hline⟩
    · exact ⟨_, hc, hcharacter⟩
    · exact ⟨_, ht, htext⟩
  · have hsome : reply.token = none := by
      rw [h.token]
      cases hparse : Request.parse m.name m.userInfo with
      | error e => rfl
      | ok r =>
        have hnames := (Request.names_of_decode (Request.decode_of_parse hparse)).1
        exact Option.not_isSome_iff_eq_none.mp fun hr ↦ hnone (hnames.mp hr) r hparse
    rw [hsome] at hline hcharacter htext
    simp only [List.mem_cons, List.not_mem_nil, or_false]
    rintro part (rfl | rfl | rfl)
    · exact hline
    · exact hcharacter
    · exact htext

end PageMessage

namespace Handler

variable {v : Service} {now strand : Nat} {news : HandlerNews} {h h' : Handler} {s s' : ServiceState}

theorem sound_begin (m : PageMessage) : (begin m).Sound := Or.inl rfl

/-- What comes of a turn: a handler of the same message that has its request, or a reply to the message. -/
theorem phaseTurn_cases (hsound : h.Sound) :
    (∃ e, Request.parse h.message.name h.message.userInfo = .error e ∧
      phaseTurn v now strand news h.message h.phase s =
        .finished (.error h.message.name e.message) s) ∨
      ∃ r, Request.parse h.message.name h.message.userInfo = .ok r ∧
        TurnSuits h.message.name r (phaseTurn v now strand news h.message h.phase s) := by
  rcases hsound with hphase | ⟨r, hparse, hknows⟩
  · rw [hphase]
    cases hparse : Request.parse h.message.name h.message.userInfo with
    | error e => exact Or.inl ⟨e, rfl, by simp only [phaseTurn, hparse]⟩
    | ok r => exact Or.inr ⟨r, rfl, by simpa only [phaseTurn, hparse] using suits_start⟩
  · exact Or.inr ⟨r, hparse, suits_phaseTurn hknows⟩

theorem sound_of_moved (hsound : h.Sound) (hturn : h.turn v now strand news s = .moved h' s') :
    h'.Sound ∧ h'.message = h.message := by
  obtain ⟨phase, hphase, rfl⟩ := turn_eq_moved hturn
  refine ⟨?_, rfl⟩
  rcases phaseTurn_cases hsound with ⟨e, -, heq⟩ | ⟨r, hparse, hsuits⟩
  · rw [heq] at hphase
    cases hphase
  · rw [hphase] at hsuits
    cases hsuits with
    | moved hknows => exact Or.inr ⟨r, hparse, hknows⟩

theorem answered_of_finished {reply : Reply} (hsound : h.Sound)
    (hturn : h.turn v now strand news s = .finished reply s') : h.message.Answered reply := by
  obtain ⟨unaddressed, hphase, rfl⟩ := turn_eq_finished hturn
  rcases phaseTurn_cases hsound with ⟨e, hparse, heq⟩ | ⟨r, hparse, hsuits⟩
  · rw [heq] at hphase
    obtain ⟨rfl, -⟩ := Turn.finished.inj hphase
    exact PageMessage.answered_error hparse _
  · rw [hphase] at hsuits
    cases hsuits with
    | finished hreply => exact PageMessage.answered_of_suits hparse hreply

end Handler

end CodeNav
