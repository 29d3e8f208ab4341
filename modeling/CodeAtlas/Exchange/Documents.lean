import CodeAtlas.Document
import CodeAtlas.Exchange.Fields

/-!
# Trees, symbols and documents as JSON

A parse tree is exchanged as the list of its nodes in preorder. A node is a list of its depth, its
kind, its field and its span; the kind of a token starts with a tilde.

* `parseTree?` — the tree of a list of nodes.
* `ofSymbol`, `ofAnalysis`, `ofDocument`, `ofIdentifier` — what is known of a file.
-/

namespace CodeAtlas.Exchange

/-! ## Trees -/

/-- The mark of a token in front of its kind. -/
def tokenMark : Char := '~'

/-- The kind of a node, and whether it is more than a token. -/
def nodeKind (written : String) : String × Bool :=
  match written.toList with
  | c :: rest => if c = tokenMark then (String.ofList rest, false) else (written, true)
  | [] => (written, true)

/-- The node that a value stands for. -/
def listed? : Json → Option ParseTree.Listed
  | .array [depth, kind, field, startByte, endByte, startRow, endRow] => do
    let (kind, named) := nodeKind (← kind.text?)
    some ⟨← depth.natural?, kind, named, field.text?,
      ⟨← startByte.natural?, ← endByte.natural?, ← startRow.natural?, ← endRow.natural?⟩⟩
  | _ => none

/-- The tree that a list of nodes stands for. -/
def parseTree? (j : Json) : Option ParseTree := do
  ParseTree.ofPreorder? (← (← j.items?).mapM listed?)

/-- A tree without nodes below its root. -/
def bareTree : ParseTree := .node "" true none ⟨0, 0, 0, 0⟩ []

/-- The parser that knows the trees of some texts; of any other text it makes a bare tree. -/
def parserOf (known : List (Language × String × ParseTree)) : Parser := fun language source =>
  match known.find? fun (l, s, _) => l == language && s == source with
  | some (_, _, tree) => some tree
  | none => some bareTree

/-! ## Symbols -/

mutual

/-- A symbol with all below it. -/
def ofSymbol : Symbol → Json
  | .mk name kind line endLine signature members => .object [
      ("name", .text name), ("kind", .text kind.name), ("line", .ofNat line),
      ("end_line", .ofNat endLine), ("signature", .text signature),
      ("children", .array (ofSymbols members))]

/-- Symbols, each with all below it. -/
def ofSymbols : List Symbol → List Json
  | [] => []
  | symbol :: symbols => ofSymbol symbol :: ofSymbols symbols

end

/-- A symbol by itself. -/
def ofEntry (e : SymbolEntry) : Json := .object [
  ("name", .text e.name), ("kind", .text e.kind.name), ("line", .ofNat e.line),
  ("end_line", .ofNat e.endLine), ("signature", .text e.signature)]

/-- The kind of a name. -/
def symbolKind (j : Json) : SymbolKind :=
  (SymbolKind.parse? (text j "kind")).getD .function

/-- The symbol by itself that a value stands for. -/
def entry (j : Json) : SymbolEntry :=
  ⟨text j "name", symbolKind j, natural j "line" 0, natural j "end_line" 0, text j "signature"⟩

/-- The symbol that a value stands for, `fuel` levels of it at most. -/
def symbol : Nat → Json → Symbol
  | fuel, j =>
    let members := match fuel with
      | 0 => []
      | fuel + 1 => (items j "children").map (symbol fuel)
    .mk (text j "name") (symbolKind j) (natural j "line" 0) (natural j "end_line" 0)
      (text j "signature") members

/-- What is known of a source file. -/
def ofAnalysis (a : Analysis) : Json := .object [
  ("header", .text a.header), ("line_count", .ofNat a.lineCount),
  ("symbols", .array (ofSymbols a.symbols))]

/-- The knowledge of a source file that a value stands for. -/
def analysis (j : Json) : Analysis :=
  ⟨text j "header", (items j "symbols").map (symbol 128), natural j "line_count" 0⟩

/-! ## Documents -/

/-- A document with its texts. -/
def ofDocument (d : Document) : Json := .object [
  ("path", .text d.path), ("header", .text d.header), ("symbols", ofTexts d.symbols),
  ("symbol_entries", .array (d.entries.map ofEntry)), ("content", .text d.content),
  ("embedding_text", .text d.embeddingText), ("keyword_text", .text d.keywordText)]

/-- The document that a value stands for. -/
def document (j : Json) : Document :=
  ⟨text j "path", text j "header", (items j "symbol_entries").map entry, texts j "symbols",
    text j "content"⟩

/-- An identifier with its texts. -/
def ofIdentifier (i : Identifier) : Json := .object [
  ("id", .text i.id), ("path", .text i.path), ("header", .text i.header),
  ("name", .text i.entry.name), ("kind", .text i.entry.kind.name), ("line", .ofNat i.entry.line),
  ("end_line", .ofNat i.entry.endLine), ("signature", .text i.entry.signature),
  ("parent_name", .ofText? i.owner), ("text", .text i.text), ("keyword_text", .text i.keywordText)]

/-- The identifier that a value stands for. -/
def identifier (j : Json) : Identifier :=
  ⟨text j "id", text j "path", text j "header", entry j, text? j "parent_name", text j "text"⟩

/-- The identifier of the symbol, the file and the owner that a value names. -/
def newIdentifier (j : Json) : Identifier :=
  Identifier.ofEntry (text j "path") (text j "header") (entry (field j "entry")) (text? j "parent")

end CodeAtlas.Exchange
