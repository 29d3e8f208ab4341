import CodeAtlas.Symbol.Basic
import CodeAtlas.Symbol.Declaration
import CodeAtlas.Symbol.Header

/-!
# Documents

What is indexed. A file becomes one document, with its path, its header, the names of its symbols,
and their signatures or its text. Each symbol becomes an identifier, with the signature and the name
of its owner.

* `Analysis` — the header and the symbols of a source file; `Analysis.ofTree` reads them off the
  parse tree.
* `Document`, `Identifier` — what is indexed; the texts that are embedded and searched for words.
* `Document.ofText`, `Document.ofAnalysis`, `identifiersOf` — the documents of a file.
-/

namespace CodeAtlas

open CodeAtlas.Text

/-- What is known of a source file. -/
structure Analysis where
  /-- its header -/
  header : String
  /-- its symbols -/
  symbols : List Symbol
  /-- the number of its lines -/
  lineCount : Nat
  deriving Inhabited

/-- What a parse tree tells about a source file. -/
def Analysis.ofTree (language : Language) (source : String) (root : ParseTree) : Analysis :=
  ⟨sourceHeader source, declarations language (Source.ofText source) root, (lines source).length⟩

/-- The parser of each language: the parse tree of a source text, unless it gives up. -/
abbrev Parser := Language → String → Option ParseTree

/-- Why a source file cannot be analyzed. -/
inductive AnalysisError where
  /-- it is in no known language -/
  | unsupported (path : String)
  /-- the parser has no tree for it -/
  | unparsed (path : String)
  deriving DecidableEq

/-- The wording of an error. -/
def AnalysisError.message : AnalysisError → String
  | .unsupported path => "Unsupported source file: " ++ path
  | .unparsed path => "Failed to parse " ++ path

/-- What is known of a source file in the language that its path tells. -/
def Analysis.ofSource (parser : Parser) (path source : String) : Except AnalysisError Analysis :=
  match Language.ofPath? path with
  | some language =>
    match parser language source with
    | some tree => .ok (Analysis.ofTree language source tree)
    | none => .error (.unparsed path)
  | none => .error (.unsupported path)

/-- A symbol without those that belong to it. -/
structure SymbolEntry where
  /-- its name -/
  name : String
  /-- its kind -/
  kind : SymbolKind
  /-- its first line -/
  line : Nat
  /-- its last line -/
  endLine : Nat
  /-- the first line of its declaration -/
  signature : String
  deriving DecidableEq, Inhabited

/-- A symbol by itself. -/
def Symbol.entry (s : Symbol) : SymbolEntry :=
  ⟨s.name, s.kind, s.line, s.endLine, s.signature⟩

/-! ## Files -/

/-- A file as it is indexed. -/
structure Document where
  /-- its path under the root -/
  path : String
  /-- its header -/
  header : String
  /-- its symbols -/
  entries : List SymbolEntry
  /-- the names of its symbols -/
  symbols : List String
  /-- its text, or the signatures of its symbols -/
  content : String
  deriving DecidableEq, Inhabited

namespace Document

/-- The text that stands for the document in an embedding: path, header, symbols and content, each
on a line of its own, without the empty ones. -/
def embeddingText (d : Document) : String :=
  let parts := [d.header, " ".intercalate d.symbols, d.content]
  let present := [!d.header.isEmpty, !d.symbols.isEmpty, !d.content.isEmpty]
  "\n".intercalate (d.path :: ((parts.zip present).filter (·.2)).map (·.1))

/-- The text that is searched for words. -/
def keywordText (d : Document) : String :=
  " ".intercalate [d.path, d.header, " ".intercalate d.symbols, d.content]

/-- The document of a text file. -/
def ofText (path content : String) (maxChars : Nat) : Document :=
  ⟨path, textHeader content, [], [], truncate content maxChars⟩

/-- The document of a source file. -/
def ofAnalysis (path : String) (a : Analysis) (maxChars : Nat) : Document :=
  let entries := (Symbol.flatten a.symbols).map fun (symbol, _) => symbol.entry
  ⟨path, a.header, entries, entries.map (·.name),
    truncate ("\n".intercalate (entries.map (·.signature))) maxChars⟩

end Document

/-! ## Identifiers -/

/-- A symbol as it is indexed. -/
structure Identifier where
  /-- its name within the whole index: path, name and line -/
  id : String
  /-- the path of its file -/
  path : String
  /-- the header of its file -/
  header : String
  /-- the symbol -/
  entry : SymbolEntry
  /-- the name of its owner -/
  owner : Option String
  /-- the text that stands for it in an embedding -/
  text : String
  deriving DecidableEq, Inhabited

namespace Identifier

/-- The name of a symbol within the whole index. -/
def idOf (path : String) (entry : SymbolEntry) : String :=
  s!"{path}:{entry.name}:{entry.line}"

/-- The symbol of a file as it is indexed. -/
def ofEntry (path header : String) (entry : SymbolEntry) (owner : Option String) : Identifier where
  id := idOf path entry
  path := path
  header := header
  entry := entry
  owner := owner
  text := "\n".intercalate <|
    [entry.name, entry.kind.name, entry.signature, path] ++
      (if header.isEmpty then [] else [header]) ++
      (match owner with
        | some name => ["in " ++ name]
        | none => [])

/-- The text that is searched for words. -/
def keywordText (i : Identifier) : String :=
  " ".intercalate [i.entry.name, i.entry.signature, i.path, i.header, i.owner.getD ""]

end Identifier

/-- The identifiers of a source file, one for each symbol. -/
def identifiersOf (path : String) (a : Analysis) : List Identifier :=
  (Symbol.flatten a.symbols).map fun (symbol, owner) =>
    Identifier.ofEntry path a.header symbol.entry owner

end CodeAtlas
