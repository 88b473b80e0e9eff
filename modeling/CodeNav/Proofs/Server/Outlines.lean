import CodeNav.Server.Outline
import CodeNav.Proofs.Json.Records
import Mathlib.Algebra.Group.Nat.Defs
import Mathlib.Data.List.Chain
import Mathlib.Data.List.TakeWhile

/-!
# Outlines of trees

The outline of trees of symbols has one row for each symbol, in the order of their addresses: an address is the
place of each ancestor among its siblings, from the outside in, and then the place of the symbol itself. The
trees can be built again from the rows, as far as rows tell what is in them. If one value anywhere in an answer
is no symbol, there is no outline.

## Main definitions

* `Symbol.Describes`: the symbol that a value describes
* `Symbol.Within`: a value, and the children inside it
* `Symbol.at?`: the symbol at an address
* `OutlineTree`, `OutlineRow.rebuild`: the trees of rows

## Main statements

* `Symbol.rebuild_rows`: the trees are built again from their rows
* `Symbol.outline_of_trees`: the outline of trees of symbols
-/

namespace CodeNav

open Json (Shape Label needed)

variable {v w j : Json} {n depth : Nat}

/-! ### Written symbols -/

/-- The position that a value describes. -/
structure Position.Describes (v : Json) (p : Position) : Prop where
  record : v.IsRecord 2
  line : v.valuesAt "line" 0 = [.nat p.line]
  line_lt : p.line < 2 ^ 32
  character : v.valuesAt "character" 1 = [.nat p.character]
  character_lt : p.character < 2 ^ 32

/-- The range that a value describes. -/
structure Range.Describes (v : Json) (r : Range) : Prop where
  record : v.IsRecord 2
  start : ∃ s, v.valuesAt "start" 0 = [s] ∧ Position.Describes s r.start
  stop : ∃ s, v.valuesAt "end" 1 = [s] ∧ Position.Describes s r.stop

/-- The items of a list that may be missing. -/
inductive Json.MayList : List Json → List Json → Prop
  | missing : MayList [] []
  | list (items : List Json) : MayList [.array items] items

/-- What is written in a symbol, up to its children. -/
structure Symbol.Written (v : Json) (name : String) (kind : Nat) (range selection : Range)
    (children : List Json) : Prop where
  record : v.IsRecord 5
  nameAt : v.valuesAt "name" 0 = [.string name]
  kindAt : v.valuesAt "kind" 1 = [.nat kind]
  kind_lt : kind < 2 ^ 32
  rangeAt : ∃ r, v.valuesAt "range" 2 = [r] ∧ Range.Describes r range
  selectionAt : ∃ r, v.valuesAt "selectionRange" 3 = [r] ∧ Range.Describes r selection
  childrenAt : Json.MayList (v.valuesAt "children" 4) children

/-- The symbol that a value describes, with all those inside it. -/
inductive Symbol.Describes : Json → Symbol → Prop
  | node {v : Json} {name : String} {kind : Nat} {range selection : Range} {children : List Json}
      {trees : List Symbol} (h : Symbol.Written v name kind range selection children)
      (htrees : List.Forall₂ Symbol.Describes children trees) :
      Symbol.Describes v (.node name kind selection trees)

/-- A value, and the children inside it at any depth. -/
inductive Symbol.Within : Json → Json → Prop
  | self (v : Json) : Symbol.Within v v
  | child {v c w : Json} {children : List Json} (h : .array children ∈ v.valuesAt "children" 4)
      (hc : c ∈ children) (hw : Symbol.Within c w) : Symbol.Within v w

/-- A position in normal form. -/
def Position.normal (p : Position) : Json :=
  .object [("line", .nat p.line), ("character", .nat p.character)]

theorem accept_position : Position.shape.accept v = .ok j ↔
    ∃ p, Position.Describes v p ∧ j = p.normal := by
  refine (Json.accept_record ⟨by decide, by simp [needed]⟩ (by simp [needed])).trans ?_
  simp only [Json.fillsAt_needed, Json.fillsAt_nil, Shape.accept, Json.acceptWith_natural]
  constructor
  · rintro ⟨hrecord, _, rfl, _, _, _, hline, ⟨line, hlt, rfl, rfl⟩,
      ⟨_, _, _, hcharacter, ⟨character, hlt', rfl, rfl⟩, rfl, rfl⟩, rfl⟩
    exact ⟨⟨line, character⟩, ⟨hrecord, hline, hlt, hcharacter, hlt'⟩, rfl⟩
  · rintro ⟨p, hp, rfl⟩
    exact ⟨hp.record, _, rfl, _, _, _, hp.line, ⟨_, hp.line_lt, rfl, rfl⟩,
      ⟨_, _, _, hp.character, ⟨_, hp.character_lt, rfl, rfl⟩, rfl, rfl⟩, rfl⟩

/-- A range in normal form. -/
def Range.normal (r : Range) : Json :=
  .object [("start", r.start.normal), ("end", r.stop.normal)]

theorem accept_range : Range.shape.accept v = .ok j ↔ ∃ r, Range.Describes v r ∧ j = r.normal := by
  refine (Json.accept_record ⟨by decide, by simp [needed]⟩ (by simp [needed])).trans ?_
  simp only [Json.fillsAt_needed, Json.fillsAt_nil, accept_position]
  constructor
  · rintro ⟨hrecord, _, rfl, _, _, _, hstart, ⟨start, hs, rfl⟩, ⟨_, _, _, hstop, ⟨stop, ht, rfl⟩, rfl, rfl⟩,
      rfl⟩
    exact ⟨⟨start, stop⟩, ⟨hrecord, ⟨_, hstart, hs⟩, _, hstop, ht⟩, rfl⟩
  · rintro ⟨r, ⟨hrecord, ⟨_, hstart, hs⟩, _, hstop, ht⟩, rfl⟩
    exact ⟨hrecord, _, rfl, _, _, _, hstart, ⟨_, hs, rfl⟩, ⟨_, _, _, hstop, ⟨_, ht, rfl⟩, rfl, rfl⟩, rfl⟩

/-! ### Read symbols -/

theorem Json.MayList.eq_of_mem {vs items children : List Json} (h : MayList vs items)
    (hmem : .array children ∈ vs) : items = children := by
  cases h with
  | missing => cases hmem
  | list items => exact (Json.array.inj (List.mem_singleton.mp hmem)).symm

theorem Json.depth_lt_of_mayList {items : List Json} {place : Nat} {name : String}
    (h : MayList (v.valuesAt name place) items) (hw : w ∈ items) : w.depth + 1 < v.depth := by
  generalize hvs : v.valuesAt name place = vs at h
  cases h with
  | missing => cases hw
  | list =>
    have hlist : (array items).depth < v.depth :=
      depth_lt_of_mem_valuesAt (hvs ▸ List.mem_singleton_self _)
    exact Nat.lt_of_le_of_lt (depth_lt_of_mem hw) hlist

namespace Symbol

theorem exists_forall₂_map {α β γ : Type} {R : α → β → Prop} {f : β → γ} {as : List α} {cs : List γ} :
    (∃ bs, List.Forall₂ R as bs ∧ bs.map f = cs) ↔
      List.Forall₂ (fun a c ↦ ∃ b, R a b ∧ f b = c) as cs := by
  constructor
  · rintro ⟨bs, h, rfl⟩
    rw [List.forall₂_map_right_iff]
    exact h.imp fun _ b hb ↦ ⟨b, hb, rfl⟩
  · intro h
    induction h with
    | nil => exact ⟨[], .nil, rfl⟩
    | cons hb _ ih =>
      obtain ⟨b, hb, rfl⟩ := hb
      obtain ⟨bs, hbs, rfl⟩ := ih
      exact ⟨b :: bs, .cons hb hbs, rfl⟩

theorem takes_children {shape : Shape} {vs : List Json} :
    Label.Takes ⟨"children", none, .means (.array [])⟩ (Shape.list shape).accept vs w ↔ ∃ children ws,
      Json.MayList vs children ∧ List.Forall₂ (fun v w ↦ shape.accept v = .ok w) children ws ∧
        w = .array ws := by
  constructor
  · intro h
    cases h with
    | missing h =>
      obtain rfl := Option.some.inj h
      exact ⟨[], [], .missing, .nil, rfl⟩
    | found h =>
      obtain ⟨items, ws, rfl, hitems, rfl⟩ := Json.accept_list.mp h
      exact ⟨items, ws, .list items, hitems, rfl⟩
  · rintro ⟨children, ws, hchildren, hws, rfl⟩
    cases hchildren with
    | missing =>
      obtain rfl := List.forall₂_nil_left_iff.mp hws
      exact .missing rfl
    | list => exact .found (Json.accept_list.mpr ⟨_, ws, rfl, hws, rfl⟩)

/-- A symbol in normal form, with its children as they are. -/
def normal (name : String) (kind : Nat) (range selection : Range) (children : List Json) : Json :=
  .object [("name", .string name), ("kind", .nat kind), ("range", range.normal),
    ("selectionRange", selection.normal), ("children", .array children)]

theorem distinct_members (child : Shape) : Json.Distinct (shape.members child) :=
  ⟨by simp [shape.members, needed], by simp [shape.members, needed]⟩

/-- A symbol is read from what is written in it, when its children are read in some way. -/
theorem accept_members {record : String} {child : Shape} :
    (Shape.record record (shape.members child)).accept v = .ok j ↔
      ∃ name kind range selection children ws, Written v name kind range selection children ∧
        List.Forall₂ (fun v w ↦ child.accept v = .ok w) children ws ∧
        j = normal name kind range selection ws := by
  refine (Json.accept_record (distinct_members child) (by simp [shape.members, needed])).trans ?_
  constructor
  · rintro ⟨hrecord, _, rfl, hout⟩
    obtain ⟨_, _, _, hname, hread, hafterName, rfl⟩ := Json.fillsAt_needed.mp hout
    obtain ⟨name, rfl, rfl⟩ := Json.acceptWith_text.mp hread
    obtain ⟨_, _, _, hkind, hread, hafterKind, rfl⟩ := Json.fillsAt_needed.mp hafterName
    obtain ⟨kind, hlt, rfl, rfl⟩ := Json.acceptWith_natural.mp hread
    obtain ⟨_, _, _, hrange, hread, hafterRange, rfl⟩ := Json.fillsAt_needed.mp hafterKind
    obtain ⟨range, hdescribes, rfl⟩ := accept_range.mp hread
    obtain ⟨_, _, _, hselection, hread, hlast, rfl⟩ := Json.fillsAt_needed.mp hafterRange
    obtain ⟨selection, hselects, rfl⟩ := accept_range.mp hread
    obtain ⟨_, _, htakes, hnil, rfl⟩ := Json.fillsAt_cons.mp hlast
    obtain ⟨children, ws, hchildren, hws, rfl⟩ := takes_children.mp htakes
    obtain rfl := Json.fillsAt_nil.mp hnil
    exact ⟨name, kind, range, selection, children, ws,
      ⟨hrecord, hname, hkind, hlt, ⟨_, hrange, hdescribes⟩, ⟨_, hselection, hselects⟩, hchildren⟩, hws, rfl⟩
  · rintro ⟨name, kind, range, selection, children, ws, h, hws, rfl⟩
    obtain ⟨_, hrange, hdescribes⟩ := h.rangeAt
    obtain ⟨_, hselection, hselects⟩ := h.selectionAt
    refine ⟨h.record, _, rfl, Json.fillsAt_needed.mpr
      ⟨_, _, _, h.nameAt, Json.acceptWith_text.mpr ⟨_, rfl, rfl⟩, ?_, rfl⟩⟩
    refine Json.fillsAt_needed.mpr
      ⟨_, _, _, h.kindAt, Json.acceptWith_natural.mpr ⟨_, h.kind_lt, rfl, rfl⟩, ?_, rfl⟩
    refine Json.fillsAt_needed.mpr ⟨_, _, _, hrange, accept_range.mpr ⟨_, hdescribes, rfl⟩, ?_, rfl⟩
    refine Json.fillsAt_needed.mpr ⟨_, _, _, hselection, accept_range.mpr ⟨_, hselects, rfl⟩, ?_, rfl⟩
    exact Json.fillsAt_cons.mpr
      ⟨_, _, takes_children.mpr ⟨_, ws, h.childrenAt, hws, rfl⟩, Json.fillsAt_nil.mpr rfl, rfl⟩

theorem ofNormal_normal (n : Nat) (name : String) (kind : Nat) (range selection : Range) (ws : List Json) :
    Symbol.ofNormal (n + 1) (normal name kind range selection ws) =
      .node name kind selection (ws.map (Symbol.ofNormal n)) :=
  rfl

/-- A symbol is read from the values that describe it, when it is looked for deep enough. -/
theorem accept_iff_describes (hdepth : v.depth ≤ n) {s : Symbol} :
    (∃ j, (Symbol.shape n).accept v = .ok j ∧ Symbol.ofNormal n j = s) ↔ Symbol.Describes v s := by
  induction n generalizing v s with
  | zero =>
    have hnone {members : Nat} (h : v.IsRecord members) : False :=
      Nat.not_lt.mpr hdepth h.depth_pos
    constructor
    · rintro ⟨j, hj, -⟩
      obtain ⟨_, _, _, _, _, _, h, -⟩ := accept_members.mp hj
      exact (hnone h.record).elim
    · rintro ⟨h, -⟩
      exact (hnone h.record).elim
  | succ n ih =>
    -- Children are written inside the symbol, so they are looked for deep enough.
    have hchildren {children : List Json} {trees : List Symbol}
        (hlist : Json.MayList (v.valuesAt "children" 4) children) :
        (∃ ws, List.Forall₂ (fun v w ↦ (Symbol.shape n).accept v = .ok w) children ws ∧
          ws.map (Symbol.ofNormal n) = trees) ↔ List.Forall₂ Symbol.Describes children trees := by
      rw [exists_forall₂_map]
      refine Json.forall₂_congr_left fun c hc t ↦ ih ?_
      have hless := Json.depth_lt_of_mayList hlist hc
      omega
    constructor
    · rintro ⟨j, hj, rfl⟩
      obtain ⟨name, kind, range, selection, children, ws, h, hws, rfl⟩ := accept_members.mp hj
      rw [ofNormal_normal]
      exact .node h ((hchildren h.childrenAt).mp ⟨ws, hws, rfl⟩)
    · rintro ⟨h, htrees⟩
      obtain ⟨ws, hws, rfl⟩ := (hchildren h.childrenAt).mpr htrees
      exact ⟨_, accept_members.mpr ⟨_, _, _, _, _, ws, h, hws, rfl⟩, ofNormal_normal ..⟩

/-- Trees are read from the values that describe them. -/
theorem treesOfJson_iff {items : List Json} {trees : List Symbol} :
    Symbol.treesOfJson (.array items) = .ok trees ↔ List.Forall₂ Symbol.Describes items trees := by
  set n := (Json.array items).depth with hn
  have hitems : List.Forall₂ Symbol.Describes items trees ↔ ∃ ws,
      List.Forall₂ (fun v w ↦ (Symbol.shape n).accept v = .ok w) items ws ∧
        ws.map (Symbol.ofNormal n) = trees := by
    rw [exists_forall₂_map]
    exact Json.forall₂_congr_left fun v hv s ↦
      (accept_iff_describes (Nat.le_of_lt (Json.depth_lt_of_mem hv))).symm
  rw [hitems, treesOfJson, ← hn]
  constructor
  · intro h
    split at h
    · cases h
    · rename_i hread
      obtain ⟨_, ws, hvs, hws, rfl⟩ := Json.accept_list.mp hread
      obtain rfl := Json.array.inj hvs
      exact ⟨ws, hws, Except.ok.inj h⟩
  · rintro ⟨ws, hws, rfl⟩
    rw [Json.accept_list.mpr ⟨items, ws, rfl, hws, rfl⟩]
    rfl

/-- Some child, or a child of a child, is no symbol, so the whole is none. -/
theorem describes_of_within {s : Symbol} (h : Symbol.Describes v s) (hw : Within v w) :
    ∃ t, Symbol.Describes w t := by
  induction hw generalizing s with
  | self v => exact ⟨s, h⟩
  | child hlist hc _ ih =>
    obtain ⟨hwritten, htrees⟩ := h
    obtain rfl := hwritten.childrenAt.eq_of_mem hlist
    obtain ⟨t, ht⟩ := Json.exists_of_forall₂ htrees hc
    exact ih ht

end Symbol

/-! ### Trees of rows -/

/-- What the rows of an outline tell about a symbol and those inside it. -/
inductive OutlineTree where
  | node (name kind : String) (start stop : Position) (children : List OutlineTree)
  deriving Inhabited

/-- A row put before the trees of later rows, with their depths. The trees that follow it and are nested deeper
are inside it. -/
def OutlineRow.place (row : OutlineRow) (later : List (Nat × OutlineTree)) : List (Nat × OutlineTree) :=
  (row.indent, .node row.name row.kind row.start row.stop
    ((later.takeWhile fun t ↦ row.indent < t.1).map Prod.snd)) ::
      later.dropWhile fun t ↦ row.indent < t.1

/-- The trees of rows, built from the last row to the first. -/
def OutlineRow.rebuild (rows : List OutlineRow) : List OutlineTree :=
  (rows.foldr OutlineRow.place []).map Prod.snd

namespace Symbol

mutual

/-- What an outline tells about a symbol. -/
def seen : Symbol → OutlineTree
  | .node name kind selection children =>
    .node name (symbolKindLabel kind) selection.start selection.stop (seenAll children)

/-- What an outline tells about symbols. -/
def seenAll : List Symbol → List OutlineTree
  | [] => []
  | s :: rest => s.seen :: seenAll rest

end

/-- What holds for no symbols, and for symbols when it holds for the children of the first one and for the
others, holds for all symbols. -/
theorem forest_induction {P : List Symbol → Prop} (nil : P [])
    (node : ∀ name kind selection children rest, P children → P rest →
      P (.node name kind selection children :: rest)) : ∀ trees, P trees
  | [] => nil
  | .node name kind selection children :: rest =>
    node name kind selection children rest (forest_induction nil node children)
      (forest_induction nil node rest)

theorem rowsOfAll_node (name : String) (kind : Nat) (selection : Range) (children rest : List Symbol) :
    rowsOfAll depth (.node name kind selection children :: rest) =
      ⟨name, symbolKindLabel kind, selection.start, selection.stop, depth⟩ ::
        (rowsOfAll (depth + 1) children ++ rowsOfAll depth rest) := by
  rw [rowsOfAll, Symbol.rowsAt, List.cons_append]

theorem seenAll_node (name : String) (kind : Nat) (selection : Range) (children rest : List Symbol) :
    seenAll (.node name kind selection children :: rest) =
      .node name (symbolKindLabel kind) selection.start selection.stop (seenAll children) ::
        seenAll rest := by
  rw [seenAll, seen]

/-- The rows of symbols put before trees that are not nested deeper. -/
theorem foldr_place (trees : List Symbol) : ∀ depth (later : List (Nat × OutlineTree)),
    (∀ t ∈ later.head?, t.1 ≤ depth) → (rowsOfAll depth trees).foldr OutlineRow.place later =
      (seenAll trees).map (depth, ·) ++ later := by
  induction trees using forest_induction with
  | nil => exact fun _ _ _ ↦ by rw [rowsOfAll, seenAll]; rfl
  | node name kind selection children rest ihc ihr =>
    intro depth later hlater
    have hhead : ∀ t ∈ ((seenAll rest).map (depth, ·) ++ later).head?, t.1 ≤ depth := by
      cases hrest : seenAll rest with
      | nil => exact hlater
      | cons t ts => simp
    have hinside : ∀ t ∈ (seenAll children).map (depth + 1, ·), decide (depth < t.1) = true := by simp
    have houtside : ((seenAll rest).map (depth, ·) ++ later).takeWhile (fun t ↦ depth < t.1) = [] ∧
        ((seenAll rest).map (depth, ·) ++ later).dropWhile (fun t ↦ depth < t.1) =
          (seenAll rest).map (depth, ·) ++ later := by
      generalize (seenAll rest).map (depth, ·) ++ later = next at hhead
      cases next with
      | nil => exact ⟨rfl, rfl⟩
      | cons t ts =>
        have ht : ¬ depth < t.1 := Nat.not_lt.mpr (hhead t rfl)
        simp [ht]
    rw [rowsOfAll_node, seenAll_node, List.foldr_cons, List.foldr_append, ihr depth later hlater,
      ihc (depth + 1) _ fun t ht ↦ Nat.le_succ_of_le (hhead t ht), OutlineRow.place,
      List.takeWhile_append_of_pos hinside, List.dropWhile_append_of_pos hinside, houtside.1, houtside.2]
    simp [Function.comp_def]

/-- The trees are built again from their rows. -/
theorem rebuild_rows (trees : List Symbol) : OutlineRow.rebuild (Symbol.rows trees) = seenAll trees := by
  rw [OutlineRow.rebuild, Symbol.rows, foldr_place trees 0 [] nofun]
  simp [Function.comp_def]

/-- The rows of symbols start at their depth, go no higher, and go down one by one. -/
theorem steps_rowsOfAll (trees : List Symbol) : ∀ depth,
    (∀ r ∈ (rowsOfAll depth trees).head?, r.indent = depth) ∧
      (∀ r ∈ rowsOfAll depth trees, depth ≤ r.indent) ∧
      (rowsOfAll depth trees).IsChain fun r next ↦ next.indent ≤ r.indent + 1 := by
  induction trees using forest_induction with
  | nil => simp [rowsOfAll]
  | node name kind selection children rest ihc ihr =>
    intro depth
    obtain ⟨hfirst, hlow, hchain⟩ := ihc (depth + 1)
    obtain ⟨hfirst', hlow', hchain'⟩ := ihr depth
    rw [rowsOfAll_node]
    refine ⟨by simp, ?_, List.isChain_cons.mpr ⟨?_, List.isChain_append.mpr ⟨hchain, hchain', ?_⟩⟩⟩
    · intro r hr
      rcases List.mem_cons.mp hr with rfl | hr
      · exact Nat.le_refl depth
      rcases List.mem_append.mp hr with hr | hr
      · exact Nat.le_of_succ_le (hlow r hr)
      · exact hlow' r hr
    · intro r hr
      rw [List.head?_append, Option.mem_def, Option.or_eq_some_iff] at hr
      rcases hr with hr | ⟨-, hr⟩
      · exact Nat.le_of_eq (hfirst r hr)
      · exact Nat.le_succ_of_le (Nat.le_of_eq (hfirst' r hr))
    · intro r hr next hnext
      have hr' := hlow r (List.mem_of_getLast? hr)
      have hnext' := hfirst' next hnext
      omega

/-! ### Addresses -/

/-- The symbols directly inside a symbol. -/
def children : Symbol → List Symbol
  | .node _ _ _ children => children

/-- The row of a symbol that is nested at some depth. -/
def row (depth : Nat) : Symbol → OutlineRow
  | .node name kind selection _ => ⟨name, symbolKindLabel kind, selection.start, selection.stop, depth⟩

/-- The symbol at an address: the places of its ancestors among their siblings, from the outside in, and its
own place. -/
def at? (trees : List Symbol) : List Nat → Option Symbol
  | [] => none
  | [i] => trees[i]?
  | i :: j :: address => trees[i]?.bind fun s ↦ at? s.children (j :: address)

/-- The addresses of symbols in the order of their rows. An address comes before those that go on from it, and
these come before the addresses of later siblings. -/
structure RowsAt (depth : Nat) (trees : List Symbol) (addresses : List (List Nat)) : Prop where
  ordered : addresses.Pairwise (· < ·)
  complete : ∀ a, a ∈ addresses ↔ ∃ s, at? trees a = some s
  rows : List.Forall₂ (fun a r ↦ ∃ s, at? trees a = some s ∧ r = s.row (depth + (a.length - 1)))
    addresses (rowsOfAll depth trees)

variable {trees children rest : List Symbol} {addresses : List (List Nat)} {address : List Nat} {i : Nat}

theorem at?_nil_left (address : List Nat) : at? [] address = none := by
  rcases address with _ | ⟨i, _ | ⟨j, address⟩⟩ <;> rfl

theorem at?_succ (s : Symbol) : at? (s :: rest) ((i + 1) :: address) = at? rest (i :: address) := by
  cases address <;> rfl

/-- An address among the siblings after another symbol. -/
def afterOne : List Nat → List Nat
  | [] => []
  | i :: address => (i + 1) :: address

theorem afterOne_lt_afterOne {a b : List Nat} (h : a < b) : afterOne a < afterOne b := by
  cases a with
  | nil =>
    cases b with
    | nil => exact h
    | cons j b => exact List.nil_lt_cons _ _
  | cons i a =>
    cases b with
    | nil => exact (List.not_lt_nil _ h).elim
    | cons j b => simpa [afterOne, List.cons_lt_cons_iff] using h

theorem afterOne_eq_nil {b : List Nat} : afterOne b = [] ↔ b = [] := by
  cases b <;> simp [afterOne]

theorem afterOne_ne_zero_cons {b : List Nat} : afterOne b ≠ 0 :: address := by
  cases b <;> simp [afterOne]

theorem afterOne_eq_succ_cons {b : List Nat} : afterOne b = (i + 1) :: address ↔ b = i :: address := by
  cases b <;> simp [afterOne]

theorem RowsAt.ne_nil (h : RowsAt depth trees addresses) (ha : address ∈ addresses) : address ≠ [] := by
  rintro rfl
  obtain ⟨s, hs⟩ := (h.complete []).mp ha
  cases hs

theorem rowsAt_nil (depth : Nat) : RowsAt depth [] [] where
  ordered := .nil
  complete := by simp [at?_nil_left]
  rows := by rw [rowsOfAll]; exact .nil

/-- The addresses of a symbol, of those inside it, and of its later siblings. -/
theorem RowsAt.node {name : String} {kind : Nat} {selection : Range} {inside after : List (List Nat)}
    (hinside : RowsAt (depth + 1) children inside) (hafter : RowsAt depth rest after) :
    RowsAt depth (.node name kind selection children :: rest)
      ([0] :: (inside.map (0 :: ·) ++ after.map afterOne)) where
  ordered := by
    refine List.pairwise_cons.mpr ⟨?_, List.pairwise_append.mpr ⟨?_, ?_, ?_⟩⟩
    · intro a ha
      rcases List.mem_append.mp ha with ha | ha
      · obtain ⟨c, hc, rfl⟩ := List.mem_map.mp ha
        obtain ⟨i, c, rfl⟩ := List.exists_cons_of_ne_nil (hinside.ne_nil hc)
        exact List.cons_lt_cons_iff.mpr (Or.inr ⟨rfl, List.nil_lt_cons _ _⟩)
      · obtain ⟨b, hb, rfl⟩ := List.mem_map.mp ha
        obtain ⟨i, b, rfl⟩ := List.exists_cons_of_ne_nil (hafter.ne_nil hb)
        exact List.cons_lt_cons_iff.mpr (Or.inl (Nat.succ_pos i))
    · exact hinside.ordered.map _ fun _ _ h ↦ List.cons_lt_cons_iff.mpr (Or.inr ⟨rfl, h⟩)
    · exact hafter.ordered.map _ fun _ _ h ↦ afterOne_lt_afterOne h
    · intro a ha a' ha'
      obtain ⟨c, -, rfl⟩ := List.mem_map.mp ha
      obtain ⟨b, hb, rfl⟩ := List.mem_map.mp ha'
      obtain ⟨i, b, rfl⟩ := List.exists_cons_of_ne_nil (hafter.ne_nil hb)
      exact List.cons_lt_cons_iff.mpr (Or.inl (Nat.succ_pos i))
  complete := by
    have hnil : [] ∉ inside := fun h ↦ hinside.ne_nil h rfl
    have hnil' : [] ∉ after := fun h ↦ hafter.ne_nil h rfl
    intro a
    simp only [List.mem_cons, List.mem_append, List.mem_map]
    rcases a with _ | ⟨_ | i, _ | ⟨j, a⟩⟩
    · simp [at?, afterOne_eq_nil, hnil']
    · simp [at?]
    · simp [at?, Symbol.children, afterOne_ne_zero_cons, hinside.complete]
    · simp [at?_succ, afterOne_eq_succ_cons, hafter.complete]
    · simp [at?_succ, afterOne_eq_succ_cons, hafter.complete]
  rows := by
    rw [rowsOfAll_node]
    refine .cons ⟨_, rfl, rfl⟩ (List.rel_append ?_ ?_)
    · refine List.forall₂_map_left_iff.mpr ((Json.forall₂_congr_left fun a ha r ↦ ?_).mp hinside.rows)
      obtain ⟨i, a, rfl⟩ := List.exists_cons_of_ne_nil (hinside.ne_nil ha)
      simp [at?, Symbol.children, Nat.add_assoc, Nat.add_comm 1]
    · refine List.forall₂_map_left_iff.mpr ((Json.forall₂_congr_left fun a ha r ↦ ?_).mp hafter.rows)
      obtain ⟨i, a, rfl⟩ := List.exists_cons_of_ne_nil (hafter.ne_nil ha)
      simp [afterOne, at?_succ]

theorem exists_rowsAt (trees : List Symbol) : ∀ depth, ∃ addresses, RowsAt depth trees addresses := by
  induction trees using forest_induction with
  | nil => exact fun depth ↦ ⟨[], rowsAt_nil depth⟩
  | node name kind selection children rest ihc ihr =>
    intro depth
    obtain ⟨inside, hinside⟩ := ihc (depth + 1)
    obtain ⟨after, hafter⟩ := ihr depth
    exact ⟨_, hinside.node hafter⟩

/-! ### Outlines -/

theorem isSome_selectionRange {fields : List (String × Json)} {s : Symbol}
    (h : Symbol.Describes (.object fields) s) : ((Json.object fields).field? "selectionRange").isSome := by
  obtain ⟨hwritten, -⟩ := h
  obtain ⟨r, hr, -⟩ := hwritten.selectionAt
  change Json.valuesOf "selectionRange" fields = [r] at hr
  rw [Json.field?, Json.lookup_eq_head?, hr]
  rfl

theorem outline_eq_ok {first : Json} {rows : List OutlineRow}
    {rest : List Json} (hfirst : (first.field? "selectionRange").isSome) :
    outline (.array (first :: rest)) = .ok rows ↔
      ∃ trees, List.Forall₂ Symbol.Describes (first :: rest) trees ∧ rows = Symbol.rows trees := by
  rw [outline, if_pos hfirst]
  simp only [← treesOfJson_iff]
  cases Symbol.treesOfJson (.array (first :: rest)) with
  | error e => simp
  | ok trees => simp [eq_comm]

/-- Where there is no outline of trees, the answer was none. -/
theorem exists_invalidResponse {first : Json} {rest : List Json}
    (hfirst : (first.field? "selectionRange").isSome)
    (hnone : ∀ rows, outline (.array (first :: rest)) ≠ .ok rows) :
    ∃ message, outline (.array (first :: rest)) = .error (.invalidResponse outlineMethod message) := by
  rw [outline, if_pos hfirst] at hnone ⊢
  cases htrees : Symbol.treesOfJson (.array (first :: rest)) with
  | error e => exact ⟨e.message, rfl⟩
  | ok trees =>
    rw [htrees] at hnone
    exact (hnone _ rfl).elim

theorem outline_eq_rows {items : List Json} (h : List.Forall₂ Symbol.Describes items trees)
    (hfirst : ∀ first ∈ items.head?, ∃ fields, first = .object fields) :
    outline (.array items) = .ok (Symbol.rows trees) := by
  cases h with
  | nil => rfl
  | cons hs htrees =>
    obtain ⟨fields, rfl⟩ := hfirst _ rfl
    exact (outline_eq_ok (isSome_selectionRange hs)).mpr ⟨_, .cons hs htrees, rfl⟩

/-- The outline of symbols that are written as objects has their rows, one for each address in the order of
addresses, from which the trees can be built again; the rows start at the top and go down one by one. Where
there is a value that is no symbol, among such symbols or inside them, there is no outline. -/
theorem outline_of_trees :
    (∀ items trees, List.Forall₂ Symbol.Describes items trees →
      (∀ first ∈ items.head?, ∃ fields, first = .object fields) →
        ∃ rows, outline (.array items) = .ok rows ∧ OutlineRow.rebuild rows = seenAll trees ∧
          (∃ addresses : List (List Nat), addresses.Pairwise (· < ·) ∧
            (∀ a, a ∈ addresses ↔ ∃ s, at? trees a = some s) ∧
            List.Forall₂ (fun a r ↦ ∃ s, at? trees a = some s ∧ r = s.row (a.length - 1)) addresses rows) ∧
          (∀ r ∈ rows.head?, r.indent = 0) ∧ rows.IsChain fun r next ↦ next.indent ≤ r.indent + 1) ∧
      ∀ first rest, (first.field? "selectionRange").isSome →
        (∃ v ∈ first :: rest, ∃ w, Within v w ∧ ∀ s, ¬ Symbol.Describes w s) →
          ∃ message, outline (.array (first :: rest)) = .error (.invalidResponse outlineMethod message) := by
  constructor
  · intro items trees htrees hfirst
    obtain ⟨addresses, haddresses⟩ := exists_rowsAt trees 0
    obtain ⟨htop, -, hsteps⟩ := steps_rowsOfAll trees 0
    refine ⟨Symbol.rows trees, outline_eq_rows htrees hfirst, rebuild_rows trees,
      ⟨addresses, haddresses.ordered, haddresses.complete, ?_⟩, htop, hsteps⟩
    simpa only [Symbol.rows, Nat.zero_add] using haddresses.rows
  · rintro first rest hfirst ⟨v, hv, w, hw, hnot⟩
    refine exists_invalidResponse hfirst fun rows hrows ↦ ?_
    obtain ⟨trees, htrees, -⟩ := (outline_eq_ok hfirst).mp hrows
    obtain ⟨s, hs⟩ := Json.exists_of_forall₂ htrees hv
    obtain ⟨t, ht⟩ := describes_of_within hs hw
    exact hnot t ht

/-- A range that is written as a list of two positions, which are lists themselves. -/
def writtenRange (line start stop : Nat) : Json :=
  .array [.array [.nat line, .nat start], .array [.nat line, .nat stop]]

theorem describes_writtenRange {line start stop : Nat} (hline : line < 2 ^ 32) (hstart : start < 2 ^ 32)
    (hstop : stop < 2 ^ 32) :
    Range.Describes (writtenRange line start stop) ⟨⟨line, start⟩, ⟨line, stop⟩⟩ where
  record := Nat.le_refl 2
  start := ⟨_, rfl, Nat.le_refl 2, rfl, hline, rfl, hstart⟩
  stop := ⟨_, rfl, Nat.le_refl 2, rfl, hline, rfl, hstop⟩

/-- A class with a method inside it, which is written as a list. -/
def writtenClass : Json :=
  .object
    [("name", .string "A"), ("kind", .nat 5), ("range", writtenRange 0 0 9),
      ("selectionRange", writtenRange 0 6 7),
      ("children", .array [.array [.string "f", .nat 6, writtenRange 0 8 9, writtenRange 0 8 9]])]

theorem describes_writtenClass : Symbol.Describes writtenClass
    (.node "A" 5 ⟨⟨0, 6⟩, ⟨0, 7⟩⟩ [.node "f" 6 ⟨⟨0, 8⟩, ⟨0, 9⟩⟩ []]) := by
  have hrange {line start stop : Nat} (h : line < 2 ^ 32 ∧ start < 2 ^ 32 ∧ stop < 2 ^ 32) :
      ∃ r, [writtenRange line start stop] = [r] ∧ Range.Describes r ⟨⟨line, start⟩, ⟨line, stop⟩⟩ :=
    ⟨_, rfl, describes_writtenRange h.1 h.2.1 h.2.2⟩
  refine .node ⟨trivial, rfl, rfl, by decide, hrange (by decide), hrange (by decide), .list _⟩
    (.cons (.node ⟨Nat.le_succ 4, rfl, rfl, by decide, hrange (by decide), hrange (by decide), .missing⟩
      .nil) .nil)

/-- The outline of a class with a method inside it; with a value beside the class that is no symbol there is
none. -/
theorem outline_of_class :
    (∃ rows, outline (.array [writtenClass]) = .ok rows ∧ OutlineRow.rebuild rows =
      [.node "A" "class" ⟨0, 6⟩ ⟨0, 7⟩ [.node "f" "method" ⟨0, 8⟩ ⟨0, 9⟩ []]]) ∧
      ∃ message, outline (.array [writtenClass, .null]) =
        .error (.invalidResponse outlineMethod message) := by
  constructor
  · obtain ⟨rows, hrows, hrebuild, -⟩ := outline_of_trees.1 [writtenClass] _ (.cons describes_writtenClass .nil)
      (by rintro _ ⟨⟩; exact ⟨_, rfl⟩)
    exact ⟨rows, hrows, hrebuild⟩
  · refine outline_of_trees.2 writtenClass [.null] (by decide) ⟨.null, by simp, .null, .self _, ?_⟩
    rintro s ⟨h, -⟩
    exact h.record

end Symbol

end CodeNav
