import CodeNav.Proofs.Browser.Messages
import CodeNav.Proofs.Json.Records
import Mathlib.Algebra.Group.Nat.Defs
import Mathlib.Data.List.TakeWhile

/-!
# What may be asked for

A request is one of sixteen, and its arguments are written in one of a few forms: strings under their names or
in their order, a file or a token in an object that may have other members too, and strings that may be left
out. A name of a repository has to be complete, and a path or an address may not be blank. Every other message
is refused, with an error that tells an unknown name from arguments that do not fit.

## Main definitions

* `Request.names`: the names of requests
* `DocumentArgs.In`, `TokenArgs.In`: files and tokens in the members of an object
* `Request.Means`: the request that a name and arguments stand for

## Main statements

* `Request.parse_iff_means`: what is accepted, and as what
-/

namespace CodeNav

open Json (Shape Label Spells HasTexts valuesOf needed)

/-- The strings that name a file. -/
def DocumentArgs.texts (d : DocumentArgs) : List (String × String) :=
  [("filepath", d.filepath), ("resource", d.repository.resource), ("slug", d.repository.slug)]

/-- A file that the members of an object name: its repository is complete, and its path is not blank. -/
structure DocumentArgs.In (d : DocumentArgs) (fields : List (String × Json)) : Prop where
  texts : HasTexts d.texts fields
  complete : d.repository.key.isComplete = true
  filled : Text.isBlankText d.filepath = false

/-- A token that the members of an object name, in such a file. -/
structure TokenArgs.In (t : TokenArgs) (fields : List (String × Json)) : Prop where
  document : t.document.In fields
  line : valuesOf "line" fields = [.nat t.line]
  line_lt : t.line < 2 ^ 32
  character : valuesOf "character" fields = [.nat t.character]
  character_lt : t.character < 2 ^ 32
  text : valuesOf "text" fields = [.string t.text]

/-- The values of a member that may be left out or `null`. -/
inductive Json.MaySpell : List Json → Option String → Prop
  | missing : MaySpell [] none
  | null : MaySpell [.null] none
  | text (s : String) : MaySpell [.string s] (some s)

theorem Json.MaySpell.length_le {vs : List Json} {text : Option String} (h : MaySpell vs text) :
    vs.length ≤ 1 := by
  cases h <;> simp

namespace Request

variable {name : String} {info j : Json} {request : Request} {fields : List (String × Json)}
  {long : Bool}

/-- The names of requests. -/
def names : List String :=
  ["initialize", "didOpen", "documentSymbol", "hover", "definition", "references", "documentHighlight",
    "shutdown", "exit", "settings", "updateSettings", "repository", "checkoutRepository",
    "deleteRepository", "buildProgress", "reset"]

/-- The requests about a token. -/
def aboutToken : List (String × (TokenArgs → Request)) :=
  [("hover", hover), ("definition", definition), ("references", references),
    ("documentHighlight", documentHighlight)]

/-- The requests about a session. -/
def aboutSession : List (String × (RepositoryArgs → Request)) :=
  [("shutdown", shutdown), ("exit", exit)]

/-- The requests about an address. -/
def aboutAddress : List (String × (String → Request)) :=
  [("repository", repository), ("checkoutRepository", checkoutRepository),
    ("deleteRepository", deleteRepository)]

/-- The request that a name and arguments stand for. -/
inductive Means : String → Json → Request → Prop
  | openPage {info : Json} {page : PageArgs}
      (h : Spells [("resource", page.resource), ("href", page.href)] info)
      (hfilled : Text.isBlankText page.href = false) : Means "initialize" info (.openPage page)
  | didOpen {fields : List (String × Json)} {d : DocumentArgs} {text : String} (h : d.In fields)
      (htext : valuesOf "text" fields = [.string text]) :
      Means "didOpen" (.object fields) (.didOpen d text)
  | documentSymbol {fields : List (String × Json)} {d : DocumentArgs} (h : d.In fields) :
      Means "documentSymbol" (.object fields) (.documentSymbol d)
  | token {name : String} {make : TokenArgs → Request} {fields : List (String × Json)} {t : TokenArgs}
      (hname : (name, make) ∈ aboutToken) (h : t.In fields) : Means name (.object fields) (make t)
  | session {name : String} {make : RepositoryArgs → Request} {info : Json} {a : RepositoryArgs}
      (hname : (name, make) ∈ aboutSession)
      (h : Spells [("resource", a.resource), ("slug", a.slug)] info)
      (hcomplete : a.key.isComplete = true) : Means name info (make a)
  | address {name : String} {make : String → Request} {info : Json} {url : String}
      (hname : (name, make) ∈ aboutAddress) (h : Spells [("url", url)] info)
      (hfilled : Text.isBlankText url = false) : Means name info (make url)
  | settings (info : Json) : Means "settings" info .settings
  | updateSettings {info : Json} {update : Settings.Update} (h : Settings.Update.ofJson info = .ok update) :
      Means "updateSettings" info (.updateSettings update)
  | anyProgress : Means "buildProgress" .null (.buildProgress ⟨none, none⟩)
  | progress {fields : List (String × Json)} {about : ProgressArgs}
      (hresource : Json.MaySpell (valuesOf "resource" fields) about.resource)
      (hslug : Json.MaySpell (valuesOf "slug" fields) about.slug) :
      Means "buildProgress" (.object fields) (.buildProgress about)
  | listedProgress {items : List Json} {about : ProgressArgs}
      (hresource : Json.MaySpell (items.take 1) about.resource)
      (hslug : Json.MaySpell (items.drop 1) about.slug) :
      Means "buildProgress" (.array items) (.buildProgress about)
  | reset (info : Json) : Means "reset" info .reset

/-! ### Arguments of each form -/

theorem map_fst_eq_singleton {a : String} {texts : List (String × String)} :
    texts.map Prod.fst = [a] ↔ ∃ s, texts = [(a, s)] := by
  constructor
  · intro h
    obtain ⟨⟨_, s⟩, texts, rfl, rfl, hrest⟩ := List.map_eq_cons_iff.mp h
    obtain rfl := List.map_eq_nil_iff.mp hrest
    exact ⟨s, rfl⟩
  · rintro ⟨s, rfl⟩
    rfl

theorem map_fst_eq_pair {a b : String} {texts : List (String × String)} :
    texts.map Prod.fst = [a, b] ↔ ∃ s t, texts = [(a, s), (b, t)] := by
  constructor
  · intro h
    obtain ⟨⟨_, s⟩, texts, rfl, rfl, hrest⟩ := List.map_eq_cons_iff.mp h
    obtain ⟨t, rfl⟩ := map_fst_eq_singleton.mp hrest
    exact ⟨s, t, rfl⟩
  · rintro ⟨s, t, rfl⟩
    rfl

theorem accept_single {record a : String} : (Shape.record record [needed a .text]).accept info = .ok j ↔
    ∃ s, Spells [(a, s)] info ∧ j = .object (Json.namedTexts [(a, s)]) := by
  refine (Json.accept_textMembers [a] (List.nodup_singleton a)).trans ?_
  simp only [map_fst_eq_singleton]
  constructor
  · rintro ⟨_, ⟨s, rfl⟩, h, rfl⟩
    exact ⟨s, h, rfl⟩
  · rintro ⟨s, h, rfl⟩
    exact ⟨_, ⟨s, rfl⟩, h, rfl⟩

theorem accept_pair {record a b : String} (hab : a ≠ b) :
    (Shape.record record [needed a .text, needed b .text]).accept info = .ok j ↔
      ∃ s t, Spells [(a, s), (b, t)] info ∧ j = .object (Json.namedTexts [(a, s), (b, t)]) := by
  refine (Json.accept_textMembers [a, b] (by simpa using hab)).trans ?_
  simp only [map_fst_eq_pair]
  constructor
  · rintro ⟨_, ⟨s, t, rfl⟩, h, rfl⟩
    exact ⟨s, t, h, rfl⟩
  · rintro ⟨s, t, h, rfl⟩
    exact ⟨_, ⟨s, t, rfl⟩, h, rfl⟩

/-- A file is read from an object with its strings. -/
theorem accept_document : documentShape.acceptWith long (.object fields) = .ok j ↔
    ∃ d : DocumentArgs, HasTexts d.texts fields ∧ j = .object (Json.namedTexts d.texts) := by
  have hfile : Json.Distinct (Json.textMembers ["filepath"]) := Json.distinct_textMembers (by decide)
  have hrepository : Json.Distinct (Json.textMembers ["resource", "slug"]) :=
    Json.distinct_textMembers (by decide)
  -- The repository is read from the members that are left when the path has been taken.
  have hleft {a : RepositoryArgs} : HasTexts [("resource", a.resource), ("slug", a.slug)]
      (fields.filter fun f ↦ !(Json.textMembers ["filepath"]).any fun m ↦ m.1.isKey f.1) ↔
        HasTexts [("resource", a.resource), ("slug", a.slug)] fields :=
    Json.hasTexts_filter (by simp [Json.textMembers, Label.isKey, needed])
  refine (Json.accept_merged_object hfile).trans ?_
  constructor
  · rintro ⟨mine, others, hmine, hothers, rfl⟩
    obtain ⟨texts, hnames, htexts, rfl⟩ := Json.fills_textMembers.mp hmine
    obtain ⟨filepath, rfl⟩ := map_fst_eq_singleton.mp hnames
    obtain ⟨_, rfl, hrest⟩ := (Json.accept_record_object hrepository).mp hothers
    obtain ⟨texts', hnames', htexts', rfl⟩ := Json.fills_textMembers.mp hrest
    obtain ⟨resource, slug, rfl⟩ := map_fst_eq_pair.mp hnames'
    refine ⟨⟨⟨resource, slug⟩, filepath⟩, List.forall_mem_cons.mpr ⟨?_, ?_⟩, rfl⟩
    · exact htexts _ List.mem_cons_self
    · exact hleft.mp htexts'
  · rintro ⟨d, hd, rfl⟩
    obtain ⟨hfilepath, hrest⟩ := List.forall_mem_cons.mp hd
    refine ⟨Json.namedTexts [("filepath", d.filepath)], _, Json.fills_textMembers.mpr ⟨_, rfl, ?_, rfl⟩,
      (Json.accept_record_object hrepository).mpr
        ⟨_, rfl, Json.fills_textMembers.mpr ⟨_, rfl, hleft.mpr hrest, rfl⟩⟩, rfl⟩
    exact List.forall_mem_singleton.mpr hfilepath

/-- What comes with a file is read from the other members of the object. -/
theorem accept_with_document {record : String} {own : List (Label × Shape)} (hown : Json.Distinct own)
    (hother : ∀ key ∈ ["filepath", "resource", "slug"], (own.any fun m ↦ m.1.isKey key) = false) :
    (Shape.merged record own documentShape).acceptWith long (.object fields) = .ok j ↔
      ∃ mine, ∃ d : DocumentArgs, Json.Fills long own fields mine ∧ HasTexts d.texts fields ∧
        j = .object (mine ++ Json.namedTexts d.texts) := by
  have hleft {d : DocumentArgs} : HasTexts d.texts
      (fields.filter fun f ↦ !own.any fun m ↦ m.1.isKey f.1) ↔ HasTexts d.texts fields := by
    refine Json.hasTexts_filter fun t ht v ↦ ?_
    have hkey : t.1 ∈ ["filepath", "resource", "slug"] := List.mem_map_of_mem ht
    rw [hother _ hkey, Bool.not_false]
  refine (Json.accept_merged_object hown).trans ?_
  simp only [accept_document, hleft]
  constructor
  · rintro ⟨mine, _, hmine, ⟨d, hd, rfl⟩, rfl⟩
    exact ⟨mine, d, hmine, hd, rfl⟩
  · rintro ⟨mine, d, hmine, hd, rfl⟩
    exact ⟨mine, _, hmine, ⟨d, hd, rfl⟩, rfl⟩

theorem accept_open : openShape.accept (.object fields) = .ok j ↔ ∃ text, ∃ d : DocumentArgs,
    valuesOf "text" fields = [.string text] ∧ HasTexts d.texts fields ∧
      j = .object (Json.namedTexts (("text", text) :: d.texts)) := by
  have htext : Json.Distinct (Json.textMembers ["text"]) := Json.distinct_textMembers (by decide)
  refine (accept_with_document htext (by decide)).trans ?_
  constructor
  · rintro ⟨mine, d, hmine, hd, rfl⟩
    obtain ⟨texts, hnames, htexts, rfl⟩ := Json.fills_textMembers.mp hmine
    obtain ⟨text, rfl⟩ := map_fst_eq_singleton.mp hnames
    exact ⟨text, d, htexts _ List.mem_cons_self, hd, rfl⟩
  · rintro ⟨text, d, htext, hd, rfl⟩
    exact ⟨Json.namedTexts [("text", text)], d,
      Json.fills_textMembers.mpr ⟨_, rfl, List.forall_mem_singleton.mpr htext, rfl⟩, hd, rfl⟩

/-- The members that a token is written with. -/
def tokenFields (t : TokenArgs) : List (String × Json) :=
  [("line", .nat t.line), ("character", .nat t.character), ("text", .string t.text)] ++
    Json.namedTexts t.document.texts

/-- A token is read from an object with its place, its text and its file. -/
theorem accept_token : tokenShape.accept (.object fields) = .ok j ↔ ∃ t : TokenArgs,
    valuesOf "line" fields = [.nat t.line] ∧ t.line < 2 ^ 32 ∧
      valuesOf "character" fields = [.nat t.character] ∧ t.character < 2 ^ 32 ∧
      valuesOf "text" fields = [.string t.text] ∧ HasTexts t.document.texts fields ∧
      j = .object (tokenFields t) := by
  refine (accept_with_document distinct_placeMembers (by decide)).trans ?_
  constructor
  · rintro ⟨mine, d, hmine, hd, rfl⟩
    obtain ⟨_, _, _, hline, hread, hmore, rfl⟩ := Json.fills_needed.mp hmine
    obtain ⟨line, hlt, rfl, rfl⟩ := Json.acceptWith_natural.mp hread
    obtain ⟨_, _, _, hcharacter, hread', hlast, rfl⟩ := Json.fills_needed.mp hmore
    obtain ⟨character, hlt', rfl, rfl⟩ := Json.acceptWith_natural.mp hread'
    obtain ⟨_, _, _, htext, hread'', hnil, rfl⟩ := Json.fills_needed.mp hlast
    obtain ⟨text, rfl, rfl⟩ := Json.acceptWith_text.mp hread''
    obtain rfl := Json.fills_nil.mp hnil
    exact ⟨⟨d, line, character, text⟩, hline, hlt, hcharacter, hlt', htext, hd, rfl⟩
  · rintro ⟨t, hline, hlt, hcharacter, hlt', htext, hd, rfl⟩
    refine ⟨[("line", .nat t.line), ("character", .nat t.character), ("text", .string t.text)], t.document,
      ?_, hd, rfl⟩
    refine Json.fills_needed.mpr
      ⟨_, _, _, hline, Json.acceptWith_natural.mpr ⟨_, hlt, rfl, rfl⟩, ?_, rfl⟩
    refine Json.fills_needed.mpr
      ⟨_, _, _, hcharacter, Json.acceptWith_natural.mpr ⟨_, hlt', rfl, rfl⟩, ?_, rfl⟩
    exact Json.fills_needed.mpr
      ⟨_, _, _, htext, Json.acceptWith_text.mpr ⟨_, rfl, rfl⟩, Json.fills_nil.mpr rfl, rfl⟩

/-- What was taken for a member that may be left out. -/
def optionalText : Option String → Json
  | none => .null
  | some s => .string s

/-- The members of what progress is about. -/
def progressMembers : List (Label × Shape) :=
  [(⟨"resource", none, .means .null⟩, .optional .text), (⟨"slug", none, .means .null⟩, .optional .text)]

theorem distinct_progressMembers : Json.Distinct progressMembers :=
  ⟨by decide, by simp [progressMembers]⟩

theorem acceptWith_optionalText {v w : Json} : (Shape.optional .text).acceptWith long v = .ok w ↔
    (v = .null ∧ w = .null) ∨ ∃ s, v = .string s ∧ w = .string s := by
  cases v <;> simp [Shape.acceptWith, eq_comm]

theorem takes_optionalText {vs : List Json} {w : Json} :
    Label.Takes ⟨name, none, .means .null⟩ ((Shape.optional .text).acceptWith long) vs w ↔
      ∃ text, Json.MaySpell vs text ∧ w = optionalText text := by
  constructor
  · intro h
    cases h with
    | missing h =>
      obtain rfl := Option.some.inj h
      exact ⟨none, .missing, rfl⟩
    | found h =>
      obtain ⟨rfl, rfl⟩ | ⟨s, rfl, rfl⟩ := acceptWith_optionalText.mp h
      · exact ⟨none, .null, rfl⟩
      · exact ⟨some s, .text s, rfl⟩
  · rintro ⟨text, hvs, rfl⟩
    cases hvs with
    | missing => exact .missing rfl
    | null => exact .found (acceptWith_optionalText.mpr (Or.inl ⟨rfl, rfl⟩))
    | text s => exact .found (acceptWith_optionalText.mpr (Or.inr ⟨s, rfl, rfl⟩))

/-- What progress is about, in normal form. -/
def progressFields (about : ProgressArgs) : List (String × Json) :=
  [("resource", optionalText about.resource), ("slug", optionalText about.slug)]

theorem accept_progress_object : progressShape.accept (.object fields) = .ok j ↔ ∃ about : ProgressArgs,
    Json.MaySpell (valuesOf "resource" fields) about.resource ∧
      Json.MaySpell (valuesOf "slug" fields) about.slug ∧ j = .object (progressFields about) := by
  refine (Json.accept_record_object distinct_progressMembers).trans ?_
  simp only [progressMembers, Json.fills_cons, Json.fills_nil, takes_optionalText]
  constructor
  · rintro ⟨_, rfl, _, _, ⟨resource, hresource, rfl⟩, ⟨_, _, ⟨slug, hslug, rfl⟩, rfl, rfl⟩, rfl⟩
    exact ⟨⟨resource, slug⟩, hresource, hslug, rfl⟩
  · rintro ⟨about, hresource, hslug, rfl⟩
    exact ⟨_, rfl, _, _, ⟨_, hresource, rfl⟩, ⟨_, _, ⟨_, hslug, rfl⟩, rfl, rfl⟩, rfl⟩

theorem lists_optionalText {members : List (Label × Shape)} {vs : List Json} {out : List (String × Json)} :
    Json.Lists ((⟨name, none, .means .null⟩, .optional .text) :: members) vs out ↔ ∃ text rest,
      Json.MaySpell (vs.take 1) text ∧ Json.Lists members (vs.drop 1) rest ∧
        out = (name, optionalText text) :: rest := by
  cases vs with
  | nil =>
    rw [Json.lists_cons_nil]
    constructor
    · rintro ⟨_, rest, hw, hrest, rfl⟩
      obtain rfl := Json.Absence.means.inj hw
      exact ⟨none, rest, .missing, hrest, rfl⟩
    · rintro ⟨text, rest, htext, hrest, rfl⟩
      obtain rfl : text = none := by cases htext; rfl
      exact ⟨_, rest, rfl, hrest, rfl⟩
  | cons v vs =>
    rw [Json.lists_cons_cons]
    constructor
    · rintro ⟨w, rest, hw, hrest, rfl⟩
      obtain ⟨rfl, rfl⟩ | ⟨s, rfl, rfl⟩ := acceptWith_optionalText.mp hw
      · exact ⟨none, rest, .null, hrest, rfl⟩
      · exact ⟨some s, rest, .text s, hrest, rfl⟩
    · rintro ⟨_, rest, hv, hrest, rfl⟩
      cases hv with
      | null => exact ⟨_, rest, acceptWith_optionalText.mpr (Or.inl ⟨rfl, rfl⟩), hrest, rfl⟩
      | text s => exact ⟨_, rest, acceptWith_optionalText.mpr (Or.inr ⟨s, rfl, rfl⟩), hrest, rfl⟩

theorem accept_progress_array {items : List Json} : progressShape.accept (.array items) = .ok j ↔
    ∃ about : ProgressArgs, Json.MaySpell (items.take 1) about.resource ∧
      Json.MaySpell (items.drop 1) about.slug ∧ j = .object (progressFields about) := by
  refine (Json.accept_record_array progressMembers).trans ?_
  simp only [progressMembers, lists_optionalText, Json.lists_nil]
  constructor
  · rintro ⟨_, rfl, resource, _, hresource, ⟨slug, _, hslug, ⟨hend, rfl⟩, rfl⟩, rfl⟩
    have hlast : (items.drop 1).take 1 = items.drop 1 :=
      List.take_of_length_le (List.drop_eq_nil_iff.mp hend)
    exact ⟨⟨resource, slug⟩, hresource, hlast ▸ hslug, rfl⟩
  · rintro ⟨about, hresource, hslug, rfl⟩
    have hlast : (items.drop 1).length ≤ 1 := hslug.length_le
    refine ⟨_, rfl, _, _, hresource, ⟨_, _, ?_, ⟨List.drop_eq_nil_iff.mpr hlast, rfl⟩, rfl⟩, rfl⟩
    rwa [List.take_of_length_le hlast]

/-! ### Flaws -/

theorem parse_eq_ok : parse name info = .ok request ↔
    decode name info = .ok request ∧ request.flaw? = none := by
  rw [parse]
  rcases decode name info with e | r
  · simp
  · dsimp only
    cases hflaw : r.flaw? with
    | some reason =>
      simp only [reduceCtorEq, Except.ok.injEq, false_iff, not_and]
      rintro rfl
      simp [hflaw]
    | none =>
      simp only [Except.ok.injEq, iff_self_and]
      rintro rfl
      exact hflaw

theorem flaw?_eq_none : request.flaw? = none ↔
    (∀ a, request.repository? = some a → a.key.isComplete = true) ∧
      (∀ d, request.document? = some d → Text.isBlankText d.filepath = false) ∧
      ∀ url, request.address? = some url → Text.isBlankText url = false := by
  rw [flaw?]
  split
  · rename_i a ha
    obtain ⟨ha, hincomplete⟩ := Option.filter_eq_some_iff.mp ha
    simp only [reduceCtorEq, false_iff, not_and]
    intro hcomplete
    simp [hcomplete a ha] at hincomplete
  · rename_i hnone
    have hcomplete : ∀ a, request.repository? = some a → a.key.isComplete = true := by
      simpa [Option.filter_eq_none_iff] using hnone
    rw [and_iff_right hcomplete]
    rcases request.document? with _ | d <;> rcases request.address? with _ | url <;>
      simp [ite_eq_iff]

/-! ### Requests -/

/-- The request of arguments that were read. -/
theorem decode_of_arguments {shape : Shape} {make : Json → Request} (h : shape.accept info = .ok j) :
    (arguments name shape info).map make = .ok (make j) := by
  rw [arguments, h]
  rfl

theorem tokenOf_tokenFields (t : TokenArgs) : tokenOf (.object (tokenFields t)) = t :=
  rfl

theorem means_of_token {make : TokenArgs → Request} (hname : (name, make) ∈ aboutToken)
    (hj : tokenShape.accept info = .ok j)
    (hcomplete : (tokenOf j).document.repository.key.isComplete = true)
    (hfilled : Text.isBlankText (tokenOf j).document.filepath = false) :
    Means name info (make (tokenOf j)) := by
  obtain ⟨fields, rfl⟩ := Json.exists_of_accept_merged hj
  obtain ⟨t, hline, hlt, hcharacter, hlt', htext, hdocument, rfl⟩ := accept_token.mp hj
  rw [tokenOf_tokenFields] at hcomplete hfilled ⊢
  exact .token hname ⟨⟨hdocument, hcomplete, hfilled⟩, hline, hlt, hcharacter, hlt', htext⟩

theorem means_of_session {make : RepositoryArgs → Request} (hname : (name, make) ∈ aboutSession)
    (hj : repositoryShape.accept info = .ok j) (hcomplete : (repositoryOf j).key.isComplete = true) :
    Means name info (make (repositoryOf j)) := by
  obtain ⟨resource, slug, hspells, rfl⟩ := (accept_pair (by decide)).mp hj
  exact .session (a := ⟨resource, slug⟩) hname hspells hcomplete

theorem means_of_address {make : String → Request} (hname : (name, make) ∈ aboutAddress)
    (hj : addressShape.accept info = .ok j) (hfilled : Text.isBlankText (j.textAt "url") = false) :
    Means name info (make (j.textAt "url")) := by
  obtain ⟨url, hspells, rfl⟩ := accept_single.mp hj
  have hmeans : Means name info (make url) := .address hname hspells hfilled
  exact hmeans

theorem textAt?_progressFields (about : ProgressArgs) :
    (⟨(Json.object (progressFields about)).textAt? "resource",
      (Json.object (progressFields about)).textAt? "slug"⟩ : ProgressArgs) = about := by
  obtain ⟨resource, slug⟩ := about
  cases resource <;> cases slug <;> rfl

theorem means_of_progress (hj : progressShape.accept info = .ok j) :
    Means "buildProgress" info (.buildProgress ⟨j.textAt? "resource", j.textAt? "slug"⟩) := by
  rcases Json.exists_of_accept_record hj with ⟨fields, rfl⟩ | ⟨items, rfl⟩
  · obtain ⟨about, hresource, hslug, rfl⟩ := accept_progress_object.mp hj
    rw [textAt?_progressFields]
    exact .progress hresource hslug
  · obtain ⟨about, hresource, hslug, rfl⟩ := accept_progress_array.mp hj
    rw [textAt?_progressFields]
    exact .listedProgress hresource hslug

/-- What is accepted is what a name and arguments stand for. -/
theorem means_of_parse (h : parse name info = .ok request) : Means name info request := by
  obtain ⟨hdecode, hflaw⟩ := parse_eq_ok.mp h
  obtain ⟨hcomplete, hfilled, haddress⟩ := flaw?_eq_none.mp hflaw
  unfold decode at hdecode
  -- One case for each name, in the order of `names`, and the last one for all others.
  split at hdecode
  case h_10 =>
    cases hdecode
    exact .settings info
  case h_16 =>
    cases hdecode
    exact .reset info
  case h_17 => cases hdecode
  case h_15 =>
    split at hdecode
    · rename_i hnull
      cases hdecode
      cases info <;> first | exact .anyProgress | cases hnull
    · obtain ⟨_, hj, rfl⟩ := exists_normal hdecode
      exact means_of_progress hj
  case h_1 =>
    obtain ⟨_, hj, rfl⟩ := exists_normal hdecode
    obtain ⟨resource, href, hspells, rfl⟩ := (accept_pair (by decide)).mp hj
    exact .openPage hspells (haddress _ rfl)
  case h_2 =>
    obtain ⟨_, hj, rfl⟩ := exists_normal hdecode
    obtain ⟨fields, rfl⟩ := Json.exists_of_accept_merged hj
    obtain ⟨text, d, htext, hd, rfl⟩ := accept_open.mp hj
    exact .didOpen (d := d) ⟨hd, hcomplete _ rfl, hfilled _ rfl⟩ htext
  case h_3 =>
    obtain ⟨_, hj, rfl⟩ := exists_normal hdecode
    obtain ⟨fields, rfl⟩ := Json.exists_of_accept_merged hj
    obtain ⟨d, hd, rfl⟩ := accept_document.mp hj
    exact .documentSymbol (d := d) ⟨hd, hcomplete _ rfl, hfilled _ rfl⟩
  case h_11 =>
    obtain ⟨j, hj, rfl⟩ := exists_normal hdecode
    exact .updateSettings (by rw [Settings.Update.ofJson, hj]; rfl)
  case h_4 | h_5 | h_6 | h_7 =>
    obtain ⟨_, hj, rfl⟩ := exists_normal hdecode
    exact means_of_token (by simp [aboutToken]) hj (hcomplete _ rfl) (hfilled _ rfl)
  case h_8 | h_9 =>
    obtain ⟨_, hj, rfl⟩ := exists_normal hdecode
    exact means_of_session (by simp [aboutSession]) hj (hcomplete _ rfl)
  case h_12 | h_13 | h_14 =>
    obtain ⟨_, hj, rfl⟩ := exists_normal hdecode
    exact means_of_address (by simp [aboutAddress]) hj (haddress _ rfl)

/-- What a name and arguments stand for is accepted. -/
theorem parse_of_means (h : Means name info request) : parse name info = .ok request := by
  have hparse {request : Request} (hdecode : decode name info = .ok request)
      (hcomplete : ∀ a, request.repository? = some a → a.key.isComplete = true)
      (hfilled : ∀ d, request.document? = some d → Text.isBlankText d.filepath = false)
      (haddress : ∀ url, request.address? = some url → Text.isBlankText url = false) :
      parse name info = .ok request :=
    parse_eq_ok.mpr ⟨hdecode, flaw?_eq_none.mpr ⟨hcomplete, hfilled, haddress⟩⟩
  have hnone {α : Type} {p : α → Prop} {o : Option α} (ho : o = none) (a : α) (ha : o = some a) : p a :=
    (Option.some_ne_none a (ha.symm.trans ho)).elim
  cases h with
  | openPage h hfilled =>
    refine hparse (decode_of_arguments ((accept_pair (by decide)).mpr ⟨_, _, h, rfl⟩)) (hnone rfl) (hnone rfl) ?_
    rintro _ ⟨⟩
    exact hfilled
  | didOpen h htext =>
    refine hparse (decode_of_arguments (accept_open.mpr ⟨_, _, htext, h.texts, rfl⟩)) ?_ ?_ (hnone rfl)
    · rintro _ ⟨⟩
      exact h.complete
    · rintro _ ⟨⟩
      exact h.filled
  | documentSymbol h =>
    refine hparse (decode_of_arguments (accept_document.mpr ⟨_, h.texts, rfl⟩)) ?_ ?_ (hnone rfl)
    · rintro _ ⟨⟩
      exact h.complete
    · rintro _ ⟨⟩
      exact h.filled
  | @token _ make fields t hname h =>
    have hj : tokenShape.accept (.object fields) = .ok (.object (tokenFields t)) :=
      accept_token.mpr ⟨t, h.line, h.line_lt, h.character, h.character_lt, h.text, h.document.texts, rfl⟩
    simp only [aboutToken, List.mem_cons, Prod.mk.injEq, List.not_mem_nil, or_false] at hname
    have hcomplete (a : RepositoryArgs) (ha : some t.document.repository = some a) :
        a.key.isComplete = true := Option.some.inj ha ▸ h.document.complete
    have hfilled (d : DocumentArgs) (hd : some t.document = some d) :
        Text.isBlankText d.filepath = false := Option.some.inj hd ▸ h.document.filled
    rcases hname with ⟨rfl, rfl⟩ | ⟨rfl, rfl⟩ | ⟨rfl, rfl⟩ | ⟨rfl, rfl⟩ <;>
      exact hparse (decode_of_arguments hj) hcomplete hfilled (hnone rfl)
  | session hname h hcomplete =>
    have hj : repositoryShape.accept info = .ok _ := (accept_pair (by decide)).mpr ⟨_, _, h, rfl⟩
    simp only [aboutSession, List.mem_cons, Prod.mk.injEq, List.not_mem_nil, or_false] at hname
    rcases hname with ⟨rfl, rfl⟩ | ⟨rfl, rfl⟩ <;>
      refine hparse (decode_of_arguments hj) ?_ (hnone rfl) (hnone rfl) <;> rintro _ ⟨⟩ <;> exact hcomplete
  | address hname h hfilled =>
    have hj : addressShape.accept info = .ok _ := accept_single.mpr ⟨_, h, rfl⟩
    simp only [aboutAddress, List.mem_cons, Prod.mk.injEq, List.not_mem_nil, or_false] at hname
    rcases hname with ⟨rfl, rfl⟩ | ⟨rfl, rfl⟩ | ⟨rfl, rfl⟩ <;>
      refine hparse (decode_of_arguments hj) (hnone rfl) (hnone rfl) ?_ <;> rintro _ ⟨⟩ <;> exact hfilled
  | settings | reset | anyProgress => exact hparse rfl (hnone rfl) (hnone rfl) (hnone rfl)
  | @updateSettings info update h =>
    cases hj : Settings.Update.shape.accept info with
    | error e => simp [Settings.Update.ofJson, hj, Except.map] at h
    | ok j =>
      obtain rfl : Settings.Update.ofNormal j = update := by
        simpa [Settings.Update.ofJson, hj, Except.map] using h
      exact hparse (decode_of_arguments hj) (hnone rfl) (hnone rfl) (hnone rfl)
  | @progress fields about hresource hslug =>
    refine hparse ((decode_of_arguments
      (accept_progress_object.mpr ⟨about, hresource, hslug, rfl⟩)).trans ?_) (hnone rfl) (hnone rfl) (hnone rfl)
    exact congrArg _ (congrArg _ (textAt?_progressFields about))
  | @listedProgress items about hresource hslug =>
    refine hparse ((decode_of_arguments
      (accept_progress_array.mpr ⟨about, hresource, hslug, rfl⟩)).trans ?_) (hnone rfl) (hnone rfl) (hnone rfl)
    exact congrArg _ (congrArg _ (textAt?_progressFields about))

theorem arguments_map_ne_unknown {n : String} {shape : Shape} {make : Json → Request} :
    (arguments name shape info).map make ≠ .error (.unknown n) := by
  rw [arguments]
  cases shape.accept info <;> simp [Except.map]

theorem decode_eq_unknown {n : String} :
    decode name info = .error (.unknown n) ↔ name ∉ names ∧ n = name := by
  unfold decode
  split
  case h_10 | h_16 => simp [names]
  case h_15 =>
    split
    · simp [names]
    · simp [arguments_map_ne_unknown, names]
  case h_17 =>
    have hname : name ∉ names := by
      simp only [names, List.mem_cons, List.not_mem_nil, or_false, not_or]
      and_intros <;> assumption
    simp [hname, eq_comm]
  all_goals simp [arguments_map_ne_unknown, names]

theorem parse_eq_unknown {n : String} :
    parse name info = .error (.unknown n) ↔ name ∉ names ∧ n = name := by
  rw [← decode_eq_unknown, parse]
  rcases decode name info with e | r
  · simp
  · dsimp only
    cases r.flaw? <;> simp

/-- The column of a token is moved over the blanks and dots before its text, and not beyond the last column. -/
theorem exists_position (t : TokenArgs) : ∃ before after, t.text.toList = before ++ after ∧
    (∀ c ∈ before, c = ' ' ∨ c = '.') ∧ (∀ c ∈ after.head?, c ≠ ' ' ∧ c ≠ '.') ∧
      t.position = ⟨t.line, min (t.character + before.length) (2 ^ 32 - 1)⟩ := by
  refine ⟨_, _, (List.takeWhile_append_dropWhile (p := fun c ↦ c = ' ' || c = '.')).symm, ?_, ?_, rfl⟩
  · intro c hc
    simpa using List.mem_takeWhile_imp hc
  · intro c hc
    have hnot := List.head?_dropWhile_not (fun c ↦ c = ' ' || c = '.') t.text.toList
    rw [Option.mem_def.mp hc] at hnot
    simpa using hnot

/-- A name and arguments are refused as unknown just when the name is none of the sixteen, and are accepted
just as the requests that they stand for. The position of a token is where its text begins without blanks and
dots, as long as there is such a column. -/
theorem parse_iff_means (name : String) (info : Json) :
    (∀ n, parse name info = .error (.unknown n) ↔ name ∉ names ∧ n = name) ∧
      (∀ request, parse name info = .ok request ↔ Means name info request) ∧
      ∀ t : TokenArgs, ∃ before after, t.text.toList = before ++ after ∧
        (∀ c ∈ before, c = ' ' ∨ c = '.') ∧ (∀ c ∈ after.head?, c ≠ ' ' ∧ c ≠ '.') ∧
          t.position = ⟨t.line, min (t.character + before.length) (2 ^ 32 - 1)⟩ :=
  ⟨fun _ ↦ parse_eq_unknown, fun _ ↦ ⟨means_of_parse, parse_of_means⟩, exists_position⟩

end Request

end CodeNav
