import CodeNav.FileSystem.Basic
import CodeNav.Server.Outline
import CodeNav.Text.Blank
import CodeNav.Text.Utf8
import CodeNav.Url.File

/-!
# Places in documents, marks and descriptions

A server names places by the address of a document and a range. For the browser a place has a path
relative to the checkout, which is empty outside it, a file name, and an excerpt of the document.

## Main definitions

* `Location`, `locations`: the places in a server's answer
* `relativePath`, `fileName`: how a document is called
* `LocationEntry`, `resolve`: places with excerpts
* `Highlight`, `highlights`: marks in a document
* `hoverText`: the description of a token
-/

namespace CodeNav

open Json (Shape Mismatch needed)

/-- A place in a document. -/
structure Location where
  uri : String
  range : Range
  deriving DecidableEq, Inhabited

/-- The written form of a link to a place. -/
def linkShape : Shape :=
  .record "LspLocationLink"
    [needed "targetUri" .text, needed "targetRange" Range.shape,
      needed "targetSelectionRange" Range.shape]

/-- The place that a value describes, directly or as a link. -/
def Location.ofJson? (j : Json) : Option Location :=
  if (j.field? "uri").isSome then
    ((locationShape.accept j).toOption).map fun v =>
      ⟨v.textAt "uri", .ofNormal (v.memberAt "range")⟩
  else if (j.field? "targetUri").isSome then
    ((linkShape.accept j).toOption).map fun v =>
      ⟨v.textAt "targetUri", .ofNormal (v.memberAt "targetSelectionRange")⟩
  else none

/-- The places in a server's answer. What is no place is left out. -/
def locations (method : String) : Json → Except SessionError (List Location)
  | .null => .ok []
  | .array items => .ok (items.filterMap Location.ofJson?)
  | .object fields => .ok ([Json.object fields].filterMap Location.ofJson?)
  | _ => .error (.invalidResponse method "result is neither array nor object")

/-- The bytes of the path that an address names. -/
def uriBytes? (uri : String) : Option (List UInt8) :=
  (Url.parse uri).toOption.bind Url.filePath?

/-- The path that an address names, when its bytes are text. -/
def uriPath? (uri : String) : Option Path :=
  ((uriBytes? uri).bind Text.utf8Text?).map Path.mk

/-- Characters that stand for single bytes. -/
def octets (bytes : List UInt8) : List Char :=
  bytes.map fun b => Char.ofNat b.toNat

/-- The name of a component, for any bytes. -/
def shownName (name : List Char) : List Char :=
  (Text.utf8Shown (name.map fun c => UInt8.ofNat c.toNat)).toList

/-- The names among components, with slashes between them. -/
def joinedNames (cs : List Path.Component) : List Char :=
  Text.joinWith '/' (cs.filterMap fun
    | .normal name => some name
    | _ => none)

/-- What is left of components below the first root that they are below. -/
def belowRoot? (roots : List (List Path.Component)) (cs : List Path.Component) :
    Option (List Path.Component) :=
  roots.findSome? fun root => Path.stripRoot? root cs

/-- The path of a document relative to the first of some roots that it is in; empty when it is in
none of them. -/
def relativePath (uri : String) (roots : List Path) : String :=
  match uriBytes? uri with
  | none => ""
  | some bytes =>
    match Text.utf8Text? bytes with
    | some text =>
      String.ofList
        ((belowRoot? (roots.map Path.components) (Path.components ⟨text⟩)).elim [] joinedNames)
    | none =>
      let rootOctets := roots.map fun root =>
        Path.componentsOf (octets (Text.utf8Bytes root.text.toList))
      String.ofList
        ((belowRoot? rootOctets (Path.componentsOf (octets bytes))).elim [] fun cs =>
          joinedNames (cs.map fun
            | .normal name => .normal (shownName name)
            | c => c))

/-- The name of a document: that of its file, or the last part of its address. -/
def fileName (uri : String) : String :=
  match uriBytes? uri with
  | some bytes =>
    match (Path.componentsOf (octets bytes)).getLast? with
    | some (.normal name) => String.ofList (shownName name)
    | _ => ""
  | none =>
    let beforeQuery := uri.toList.takeWhile fun c => c ≠ '?' && c ≠ '#'
    String.ofList (((Text.splitOn '/' beforeQuery).reverse.find? (· ≠ [])).getD [])

/-- A place as the browser shows it. -/
structure LocationEntry where
  /-- The path in the checkout, or nothing outside it. -/
  uri : String
  filename : String
  start : Position
  stop : Position
  content : String
  deriving DecidableEq, Inhabited

/-- How much of a document is shown with a place. -/
structure Preview where
  lines : Nat
  /-- Whether blanks around the excerpt are removed. -/
  trim : Bool
  deriving DecidableEq

/-- The place as the browser shows it, with the text of the document when it could be read. -/
def Location.entry (l : Location) (roots : List Path) (source : Option String)
    (preview : Preview) : LocationEntry :=
  let content := (source.map fun text => excerpt text l.range.start.line preview.lines).getD ""
  ⟨relativePath l.uri roots, fileName l.uri, l.range.start, l.range.stop,
    if preview.trim then Text.trimmed content else content⟩

/-- The text of a document, when it is a file that can be read. -/
def documentText? (fs : FileSystem) (uri : String) : Option String :=
  (uriPath? uri).bind fun path =>
    match fs.read path with
    | .ok bytes => String.fromUTF8? bytes
    | .error _ => none

/-- The texts of documents that have been read. -/
abbrev Sources := List (String × Option String)

/-- The texts with that of one more document, which is read only once. -/
def Sources.withText (fs : FileSystem) (sources : Sources) (uri : String) : Sources :=
  if (sources.lookup uri).isSome then sources else (uri, documentText? fs uri) :: sources

/-- The places with excerpts, in their order, given the texts that have been read. -/
def resolveWith (fs : FileSystem) (roots : List Path) (preview : Preview) :
    Sources → List Location → List LocationEntry
  | _, [] => []
  | sources, l :: rest =>
    let sources := sources.withText fs l.uri
    l.entry roots ((sources.lookup l.uri).getD none) preview
      :: resolveWith fs roots preview sources rest

/-- The places with excerpts, in their order. -/
def resolve (fs : FileSystem) (roots : List Path) (preview : Preview) (places : List Location) :
    List LocationEntry :=
  resolveWith fs roots preview [] places

/-- The spellings of the checkout's path: as configured, and without links. -/
def checkoutRoots (fs : FileSystem) (checkout : Path) : List Path :=
  match fs.canonical checkout with
  | .ok path => if path.same checkout then [checkout] else [checkout, path]
  | .error _ => [checkout]

/-- The place as an object. -/
def LocationEntry.toJson (e : LocationEntry) : Json :=
  .ofFields
    [("uri", .string e.uri), ("filename", .string e.filename), ("start", e.start.toJson),
      ("end", e.stop.toJson), ("content", .string e.content)]

/-- A mark in a document. -/
structure Highlight where
  start : Position
  stop : Position
  kind : String
  deriving DecidableEq, Inhabited

/-- How a kind of mark is called. -/
def highlightKindLabel : Option Nat → String
  | some 1 => "text"
  | some 2 => "read"
  | some 3 => "write"
  | _ => "none"

/-- The written form of a mark. -/
def Highlight.shape : Shape :=
  .record "LspDocumentHighlight"
    [needed "range" Range.shape, (⟨"kind", none, .means .null⟩, .optional (.natural 32))]

/-- The mark of a value in normal form. -/
def Highlight.ofNormal (j : Json) : Highlight :=
  let range := Range.ofNormal (j.memberAt "range")
  ⟨range.start, range.stop, highlightKindLabel (j.natAt? "kind")⟩

/-- The request for marks. -/
def highlightMethod : String := "textDocument/documentHighlight"

/-- The marks in a server's answer. -/
def highlights (answer : Json) : Except SessionError (List Highlight) :=
  if answer.isNull then .ok []
  else
    match (Shape.list Highlight.shape).accept answer with
    | .ok v => .ok ((v.array?.getD []).map Highlight.ofNormal)
    | .error m => .error (.invalidResponse highlightMethod m.message)

/-- The mark as an object. -/
def Highlight.toJson (h : Highlight) : Json :=
  .ofFields [("start", h.start.toJson), ("end", h.stop.toJson), ("kind", .string h.kind)]

mutual

/-- The text of a description: a string, an object with a string, or the first text that is not
empty in a list. -/
def markedText : Json → String
  | .string s => s
  | .object fields => ((Json.lookup "value" fields).bind Json.string?).getD ""
  | .array items => firstText items
  | _ => ""

/-- The first text in a list that is not empty. -/
def firstText : List Json → String
  | [] => ""
  | item :: rest =>
    let text := markedText item
    if text = "" then firstText rest else text

end

/-- The description in a server's answer. -/
def hoverText (answer : Json) : String :=
  ((answer.field? "contents").map markedText).getD ""

end CodeNav
