import CodeAtlas.Text.Basic

/-!
# Kinds of symbols

* `SymbolKind.name` — the name of a kind.
* `SymbolKind.parse?` — the kind that a word stands for; some kinds have more than one word.
-/

namespace CodeAtlas

/-- What a symbol is declared as. -/
inductive SymbolKind where
  /-- a function -/
  | function
  /-- a function that belongs to a type -/
  | method
  /-- a class -/
  | classType
  /-- a structure -/
  | structType
  /-- an enumeration -/
  | enumType
  /-- an interface -/
  | interfaceType
  /-- a type of any other form -/
  | typeName
  /-- a trait -/
  | traitType
  /-- a constant -/
  | constant
  /-- a variable -/
  | binding
  /-- a name that is made visible elsewhere -/
  | exported
  deriving DecidableEq, Inhabited

namespace SymbolKind

/-- All kinds. -/
def all : List SymbolKind :=
  [.function, .method, .classType, .structType, .enumType, .interfaceType, .typeName, .traitType,
    .constant, .binding, .exported]

/-- The name of a kind. -/
def name : SymbolKind → String
  | .function => "function"
  | .method => "method"
  | .classType => "class"
  | .structType => "struct"
  | .enumType => "enum"
  | .interfaceType => "interface"
  | .typeName => "type"
  | .traitType => "trait"
  | .constant => "const"
  | .binding => "variable"
  | .exported => "export"

/-- The words that stand for a kind besides its name. -/
def aliases : SymbolKind → List String
  | .function => ["fn", "func"]
  | .typeName => ["type_alias"]
  | .constant => ["constant"]
  | .binding => ["var", "let"]
  | _ => []

/-- The kind that a word stands for, whatever its letter case and the blanks around it. -/
def parse? (written : String) : Option SymbolKind :=
  let word := Unicode.lowercase (Text.trim written)
  all.find? fun kind => kind.name = word || kind.aliases.contains word

/-- Whether uses of such a symbol are calls. -/
def isCallable : SymbolKind → Bool
  | .function => true
  | .method => true
  | _ => false

/-- Whether such a symbol may own others. -/
def ownsMembers : SymbolKind → Bool
  | .classType => true
  | .structType => true
  | .enumType => true
  | .interfaceType => true
  | .typeName => true
  | .traitType => true
  | _ => false

/-- The kind of a declaration inside a type. -/
def asMember : SymbolKind → SymbolKind
  | .function => .method
  | kind => kind

end SymbolKind

/-- A word stands for no kind. -/
structure UnknownKind where
  /-- the word -/
  word : String
  deriving DecidableEq

/-- The wording of the error. -/
def UnknownKind.message (e : UnknownKind) : String :=
  let names := ", ".intercalate (SymbolKind.all.map SymbolKind.name)
  "Unknown kind " ++ "\x60" ++ e.word ++ "\x60" ++ s!" (expected one of {names})"

/-- The kinds that words stand for. The first word that stands for none is an error. -/
def SymbolKind.parseAll (words : List String) : Except UnknownKind (List SymbolKind) :=
  words.mapM fun word =>
    match SymbolKind.parse? word with
    | some kind => .ok kind
    | none => .error ⟨word⟩

end CodeAtlas
