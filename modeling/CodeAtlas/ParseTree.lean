/-!
# Parse trees

What a parser makes of a source text: a tree of nodes, each with a kind, the name of the field it
fills in its parent, and the part of the text it covers. Tokens are nodes too; the nodes that stand
for something more than a token are called named.

* `ParseTree.ofPreorder?` — the tree from the list of its nodes in preorder, each with its depth.
* `Source.slice` — the text that a node covers.
-/

namespace CodeAtlas

/-- The part of a text that a node covers: bytes and rows, counted from zero. -/
structure Span where
  /-- the first byte -/
  startByte : Nat
  /-- the byte after the last one -/
  endByte : Nat
  /-- the row of the first byte -/
  startRow : Nat
  /-- the row of the end -/
  endRow : Nat
  deriving DecidableEq, Inhabited

/-- A node with the nodes below it. -/
inductive ParseTree where
  /-- a node of a kind; `named` when it is more than a token -/
  | node (kind : String) (named : Bool) (field : Option String) (span : Span)
      (children : List ParseTree)
  deriving Inhabited

namespace ParseTree

/-- The kind of a node. -/
def kind : ParseTree → String
  | node kind _ _ _ _ => kind

/-- Whether a node is more than a token. -/
def isNamed : ParseTree → Bool
  | node _ named _ _ _ => named

/-- The field that a node fills in its parent. -/
def field? : ParseTree → Option String
  | node _ _ field _ _ => field

/-- The part of the text that a node covers. -/
def span : ParseTree → Span
  | node _ _ _ span _ => span

/-- The nodes directly below a node. -/
def children : ParseTree → List ParseTree
  | node _ _ _ _ children => children

/-- The named nodes directly below a node. -/
def items (t : ParseTree) : List ParseTree :=
  t.children.filter isNamed

/-- The first node below that fills a field. -/
def child? (t : ParseTree) (field : String) : Option ParseTree :=
  t.children.find? (·.field? = some field)

/-- The named nodes of the body, if there is one. -/
def bodyItems (t : ParseTree) : List ParseTree :=
  match t.child? "body" with
  | some body => body.items
  | none => []

theorem sizeOf_lt_of_mem_children {t c : ParseTree} (h : c ∈ t.children) :
    sizeOf c < sizeOf t := by
  cases t with
  | node kind named field span children =>
    have := List.sizeOf_lt_of_mem (show c ∈ children from h)
    simp only [node.sizeOf_spec]
    omega

theorem sizeOf_lt_of_mem_items {t c : ParseTree} (h : c ∈ t.items) : sizeOf c < sizeOf t :=
  sizeOf_lt_of_mem_children (List.mem_filter.mp h).1

theorem sizeOf_lt_of_mem_bodyItems {t c : ParseTree} (h : c ∈ t.bodyItems) :
    sizeOf c < sizeOf t := by
  unfold bodyItems at h
  split at h
  · next body hb =>
    have hb : body ∈ t.children := List.mem_of_find?_eq_some hb
    exact Nat.lt_trans (sizeOf_lt_of_mem_items h) (sizeOf_lt_of_mem_children hb)
  · simp at h

/-! ## Preorder -/

/-- One line of a preorder listing: a node without its children, and its depth. -/
structure Listed where
  /-- how far below the root the node is -/
  depth : Nat
  /-- its kind -/
  kind : String
  /-- whether it is more than a token -/
  named : Bool
  /-- the field it fills -/
  field : Option String
  /-- the part of the text it covers -/
  span : Span

/-- Adds a node to a listing that is read from its end: `pending` holds the trees read so far with
their depths, and those directly below the node, which come first, become its children. -/
def gather (l : Listed) (pending : List (Nat × ParseTree)) : List (Nat × ParseTree) :=
  let below := pending.takeWhile fun (depth, _) => l.depth < depth
  (l.depth, node l.kind l.named l.field l.span (below.map (·.2))) :: pending.drop below.length

/-- The tree with this preorder listing. -/
def ofPreorder? (listing : List Listed) : Option ParseTree :=
  (listing.foldr gather []).head?.map (·.2)

end ParseTree

/-- A source text with its bytes at hand. -/
structure Source where
  /-- the text -/
  text : String
  /-- its bytes -/
  bytes : ByteArray

namespace Source

/-- A text as a source. -/
def ofText (text : String) : Source := ⟨text, text.toUTF8⟩

/-- The text between two bytes; empty when they do not enclose whole characters. -/
def slice (s : Source) (startByte endByte : Nat) : String :=
  if startByte ≤ endByte && endByte ≤ s.bytes.size then
    (String.fromUTF8? (s.bytes.extract startByte endByte)).getD ""
  else ""

/-- The text that a node covers. -/
def textOf (s : Source) (t : ParseTree) : String :=
  s.slice t.span.startByte t.span.endByte

/-- The text of the first node below that fills a field, unless it is empty. -/
def fieldText? (s : Source) (t : ParseTree) (field : String) : Option String :=
  ((t.child? field).map s.textOf).filter (· ≠ "")

end Source

end CodeAtlas
