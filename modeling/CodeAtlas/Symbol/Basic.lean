import CodeAtlas.Symbol.Kind

/-!
# Symbols

A symbol is a declared name with the lines it spans, the first line of its declaration, and the
symbols that belong to it.

* `Symbol.sortLevels` — the symbols of every level in the order of their lines; symbols of one line
  stay in order.
* `Symbol.flatten` — a symbol and all below it in preorder, each with the name of its owner.
-/

namespace CodeAtlas

/-- A declared name. -/
inductive Symbol where
  /-- a symbol from its name, its kind, its first and last line (counted from one), the first line
  of its declaration, and the symbols that belong to it -/
  | mk (name : String) (kind : SymbolKind) (line endLine : Nat) (signature : String)
      (members : List Symbol)
  deriving Inhabited

namespace Symbol

/-- The declared name. -/
def name : Symbol → String
  | mk name _ _ _ _ _ => name

/-- What it is declared as. -/
def kind : Symbol → SymbolKind
  | mk _ kind _ _ _ _ => kind

/-- The first line, counted from one. -/
def line : Symbol → Nat
  | mk _ _ line _ _ _ => line

/-- The last line. -/
def endLine : Symbol → Nat
  | mk _ _ _ endLine _ _ => endLine

/-- The first line of the declaration. -/
def signature : Symbol → String
  | mk _ _ _ _ signature _ => signature

/-- The symbols that belong to it. -/
def members : Symbol → List Symbol
  | mk _ _ _ _ _ members => members

/-- The symbol with other members. -/
def withMembers (s : Symbol) (members : List Symbol) : Symbol :=
  mk s.name s.kind s.line s.endLine s.signature members

/-- The symbol with another first line of its declaration. -/
def withSignature (s : Symbol) (signature : String) : Symbol :=
  mk s.name s.kind s.line s.endLine signature s.members

/-- Symbols in the order of their lines. -/
def byLine (symbols : List Symbol) : List Symbol :=
  symbols.mergeSort fun a b => a.line ≤ b.line

/-- The symbol with the members of every level in the order of their lines. -/
def sortMembers : Symbol → Symbol
  | mk name kind line endLine signature members =>
    mk name kind line endLine signature (byLine (members.map sortMembers))

/-- The symbols of every level in the order of their lines. -/
def sortLevels (symbols : List Symbol) : List Symbol :=
  byLine (symbols.map sortMembers)

/-- A symbol and all below it in preorder, each with the name of its owner. -/
def flattenUnder (owner : Option String) : Symbol → List (Symbol × Option String)
  | mk name kind line endLine signature members =>
    (mk name kind line endLine signature members, owner) ::
      members.flatMap (flattenUnder (some name))

/-- All symbols in preorder, each with the name of its owner. -/
def flatten (symbols : List Symbol) : List (Symbol × Option String) :=
  symbols.flatMap (flattenUnder none)

end Symbol

end CodeAtlas
