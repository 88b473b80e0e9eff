import CodeNav.Json.Shape
import CodeNav.Position
import CodeNav.Server.Error

/-!
# The outline of a document

A server describes the symbols of a document as trees or as a plain list. The outline has one row
for each symbol, parents before their children, and each row knows how deep its symbol is nested.

## Main definitions

* `Range`: a part of a document
* `Symbol`: a tree of symbols
* `OutlineRow`, `Symbol.rows`: the outline of trees
* `outline`: the outline in a server's answer
* `symbolKindLabel`: how kinds of symbols are called
-/

namespace CodeNav

open Json (Shape Mismatch needed Label)

/-- A part of a document. -/
structure Range where
  start : Position
  stop : Position
  deriving DecidableEq, Inhabited

/-- The written form of a position. -/
def Position.shape : Shape :=
  .record "LspPosition" [needed "line" (.natural 32), needed "character" (.natural 32)]

/-- The position of a value in normal form. -/
def Position.ofNormal (j : Json) : Position :=
  ⟨j.natAt "line", j.natAt "character"⟩

/-- The position as an object. -/
def Position.toJson (p : Position) : Json :=
  .ofFields [("line", .nat p.line), ("character", .nat p.character)]

/-- The written form of a range. -/
def Range.shape : Shape :=
  .record "LspRange" [needed "start" Position.shape, needed "end" Position.shape]

/-- The range of a value in normal form. -/
def Range.ofNormal (j : Json) : Range :=
  ⟨.ofNormal (j.memberAt "start"), .ofNormal (j.memberAt "end")⟩

/-- How a kind of symbol is called. Kinds without a name of their own are called by number. -/
def symbolKindLabel (kind : Nat) : String :=
  match kind with
  | 5 => "class"
  | 6 => "method"
  | 7 => "property"
  | 8 => "field"
  | 9 => "constructor"
  | 10 => "enum"
  | 11 => "interface"
  | 12 => "function"
  | 23 => "struct"
  | other => toString other

/-- A symbol with those inside it. -/
inductive Symbol where
  | node (name : String) (kind : Nat) (selection : Range) (children : List Symbol)
  deriving Inhabited

/-- A row of an outline. -/
structure OutlineRow where
  name : String
  kind : String
  start : Position
  stop : Position
  /-- How deep the symbol is nested. -/
  indent : Nat
  deriving DecidableEq, Inhabited

mutual

/-- The rows of a symbol that is nested at some depth: its own, and then those of its children. -/
def Symbol.rowsAt (depth : Nat) : Symbol → List OutlineRow
  | .node name kind selection children =>
    ⟨name, symbolKindLabel kind, selection.start, selection.stop, depth⟩
      :: rowsOfAll (depth + 1) children

/-- The rows of symbols one after the other. -/
def rowsOfAll (depth : Nat) : List Symbol → List OutlineRow
  | [] => []
  | s :: rest => s.rowsAt depth ++ rowsOfAll depth rest

end

/-- The rows of trees of symbols. -/
def Symbol.rows (trees : List Symbol) : List OutlineRow :=
  rowsOfAll 0 trees

/-- The written form of a symbol whose value is nested at most `depth` deep. -/
def Symbol.shape : Nat → Shape
  | 0 => .record "LspDocumentSymbol" (members .anything)
  | depth + 1 => .record "LspDocumentSymbol" (members (Symbol.shape depth))
where
  /-- The members of a symbol. -/
  members (child : Shape) : List (Label × Shape) :=
    [needed "name" .text, needed "kind" (.natural 32), needed "range" Range.shape,
      needed "selectionRange" Range.shape, (⟨"children", none, .means (.array [])⟩, .list child)]

/-- The symbol of a value in normal form that is nested at most `depth` deep. -/
def Symbol.ofNormal : Nat → Json → Symbol
  | 0, j => .node (j.textAt "name") (j.natAt "kind") (.ofNormal (j.memberAt "selectionRange")) []
  | depth + 1, j =>
    .node (j.textAt "name") (j.natAt "kind") (.ofNormal (j.memberAt "selectionRange"))
      ((j.itemsAt "children").map (Symbol.ofNormal depth))

/-- The trees of symbols that a value describes. -/
def Symbol.treesOfJson (j : Json) : Except Mismatch (List Symbol) :=
  match (Shape.list (Symbol.shape j.depth)).accept j with
  | .error m => .error m
  | .ok v => .ok ((v.array?.getD []).map (Symbol.ofNormal j.depth))

/-- The written form of a place in a document. -/
def locationShape : Shape :=
  .record "LspLocation" [needed "uri" .text, needed "range" Range.shape]

/-- The written form of a symbol in a plain list. -/
def listedSymbolShape : Shape :=
  .record "LspSymbolInformation"
    [needed "name" .text, needed "kind" (.natural 32), needed "location" locationShape]

/-- The row of a symbol in a plain list. -/
def listedSymbolRow (j : Json) : OutlineRow :=
  let range := Range.ofNormal ((j.memberAt "location").memberAt "range")
  ⟨j.textAt "name", symbolKindLabel (j.natAt "kind"), range.start, range.stop, 0⟩

/-- The request for an outline. -/
def outlineMethod : String := "textDocument/documentSymbol"

/-- The outline in a server's answer. The first symbol tells whether the symbols are trees. -/
def outline (answer : Json) : Except SessionError (List OutlineRow) :=
  match answer with
  | .null => .ok []
  | .array [] => .ok []
  | .array (first :: rest) =>
    if (first.field? "selectionRange").isSome then
      match Symbol.treesOfJson (.array (first :: rest)) with
      | .ok trees => .ok (Symbol.rows trees)
      | .error m => .error (.invalidResponse outlineMethod m.message)
    else
      match (Shape.list listedSymbolShape).accept (.array (first :: rest)) with
      | .ok v => .ok ((v.array?.getD []).map listedSymbolRow)
      | .error m => .error (.invalidResponse outlineMethod m.message)
  | _ => .error (.invalidResponse outlineMethod "result is not an array")

/-- The row as an object. -/
def OutlineRow.toJson (r : OutlineRow) : Json :=
  .ofFields
    [("name", .string r.name), ("kind", .string r.kind), ("start", r.start.toJson),
      ("end", r.stop.toJson), ("indent", .nat r.indent)]

end CodeNav
