import CodeNav.Json.Basic

/-!
# The tables of a TOML document

Tables are built up key by key. A table may be *implied* by a longer name, and then be given later
by a header of its own; it may be made by *dotted* keys, and then only be extended by dotted keys in
the same place. Whatever is given twice in another way is refused.

## Main definitions

* `Toml.Node`: a value, a table or an array of tables
* `Toml.within`: a change inside the table that a path of keys leads to
* `Toml.addValue`: a value under a key
* `Toml.Document`: what has been read so far, with `openTable`, `openRow` and `closed`
* `Toml.Node.toJson`: the value that a node stands for
-/

namespace CodeNav.Toml

/-- What stands under a key. -/
inductive Node where
  | value (v : Json)
  | table (implied dotted : Bool) (items : List (String × Node))
  | rows (tables : List (List (String × Node)))
  deriving Inhabited

/-- A table that is being built. -/
structure Table where
  implied : Bool
  dotted : Bool
  items : List (String × Node)
  deriving Inhabited

/-- The table as a node. -/
def Table.node (t : Table) : Node := .table t.implied t.dotted t.items

/-- A table with nothing in it that was given in its own right. -/
def Table.fresh : Table := ⟨false, false, []⟩

/-- What stands under a key. -/
def find? (key : String) : List (String × Node) → Option Node
  | [] => none
  | (k, n) :: rest => if k = key then some n else find? key rest

/-- The items with another node under a key. -/
def put (key : String) (n : Node) : List (String × Node) → List (String × Node)
  | [] => [(key, n)]
  | (k, m) :: rest => if k = key then (k, n) :: rest else (k, m) :: put key n rest

/-- Changes the table that a path of keys leads to. Tables on the way that are missing are implied;
the way leads through the last row of an array of tables. Dotted keys do not lead into a table that
was given in its own right. -/
def within (dotted : Bool) (change : Table → Option Table) : List String → Table → Option Table
  | [], t => change t
  | key :: path, t =>
    match find? key t.items with
    | none => do
      let inner ← within dotted change path ⟨true, dotted, []⟩
      some { t with items := put key inner.node t.items }
    | some (.value _) => none
    | some (.rows tables) =>
      match tables.getLast? with
      | none => none
      | some last => do
        let inner ← within dotted change path ⟨false, false, last⟩
        some { t with items := put key (.rows (tables.dropLast ++ [inner.items])) t.items }
    | some (.table implied wasDotted items) =>
      if dotted ∧ implied = false then none
      else do
        let inner ← within dotted change path ⟨implied, wasDotted, items⟩
        some { t with items := put key inner.node t.items }

/-- A value under a dotted key. -/
def addValue (path : List String) (key : String) (v : Json) (t : Table) : Option Table :=
  within true (fun inner =>
    if inner.dotted = path.isEmpty then none
    else if (find? key inner.items).isSome then none
    else some { inner with items := inner.items ++ [(key, .value v)] }) path t

/-- A document that is being read: the finished tables, and the one that lines now belong to. -/
structure Document where
  root : Table
  current : Table
  path : List String
  isRow : Bool

/-- The document before its first line. -/
def Document.fresh : Document := ⟨.fresh, .fresh, [], false⟩

/-- The document with its current table put in its place. -/
def Document.closed (d : Document) : Option Table :=
  match d.path.getLast? with
  | none => some d.current
  | some key =>
    within false (fun parent =>
      if d.isRow then
        match find? key parent.items with
        | none => some { parent with items := parent.items ++ [(key, .rows [d.current.items])] }
        | some (.rows tables) =>
          some { parent with items := put key (.rows (tables ++ [d.current.items])) parent.items }
        | some _ => none
      else if (find? key parent.items).isSome then none
      else some { parent with items := parent.items ++ [(key, d.current.node)] })
      d.path.dropLast d.root

/-- The document after the header of a table. A table that was only implied is taken up. -/
def Document.openTable (d : Document) (path : List String) : Option Document := do
  let root ← d.closed
  let key ← path.getLast?
  -- The parent is looked up in any case, and loses the table that is taken up.
  let found ← lookIn root path.dropLast key
  match found with
  | none => do
    let root ← within false some path.dropLast root
    some ⟨root, .fresh, path, false⟩
  | some (.table true false items) => do
    let root ← within false
      (fun parent => some { parent with items := parent.items.filter fun (k, _) => k ≠ key })
      path.dropLast root
    some ⟨root, ⟨false, false, items⟩, path, false⟩
  | some _ => none
where
  /-- What stands under a key in the table that a path leads to. -/
  lookIn (root : Table) (path : List String) (key : String) : Option (Option Node) :=
    match path with
    | [] => some (find? key root.items)
    | k :: path =>
      match find? k root.items with
      | none => some none
      | some (.value _) => none
      | some (.rows tables) =>
        match tables.getLast? with
        | none => none
        | some last => lookIn ⟨false, false, last⟩ path key
      | some (.table implied dotted items) => lookIn ⟨implied, dotted, items⟩ path key

/-- The document after the header of a row of an array of tables. -/
def Document.openRow (d : Document) (path : List String) : Option Document := do
  let root ← d.closed
  let key ← path.getLast?
  let root ← within false (fun parent =>
    match find? key parent.items with
    | none => some parent
    | some (.rows _) => some parent
    | some _ => none) path.dropLast root
  some ⟨root, .fresh, path, true⟩

mutual

/-- The value that a node stands for. -/
def Node.toJson : Node → Json
  | .value v => v
  | .table _ _ items => Json.ofFields (fieldsOf items)
  | .rows tables => .array (rowsOf tables)

/-- The values of the items of a table. -/
def fieldsOf : List (String × Node) → List (String × Json)
  | [] => []
  | (k, n) :: rest => (k, n.toJson) :: fieldsOf rest

/-- The values of the rows of an array of tables. -/
def rowsOf : List (List (String × Node)) → List Json
  | [] => []
  | items :: rest => Json.ofFields (fieldsOf items) :: rowsOf rest

end

end CodeNav.Toml
