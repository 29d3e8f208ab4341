import CodeAtlas.Path.Lexical

/-!
# Languages

The language of a source file is told by the extension of its name. Files in none of the languages
are text documents if their names say so, and are left out otherwise.
-/

namespace CodeAtlas

open CodeAtlas.Path

/-- A programming language whose declarations are known. -/
inductive Language where
  /-- TypeScript -/
  | typescript
  /-- TypeScript with embedded markup -/
  | tsx
  /-- JavaScript, with embedded markup or without -/
  | javascript
  /-- Rust -/
  | rust
  /-- Python -/
  | python
  /-- Go -/
  | go
  deriving DecidableEq, Inhabited

namespace Language

/-- The extensions of each language. -/
def extensions : List (String × Language) :=
  [("ts", .typescript), ("mts", .typescript), ("cts", .typescript), ("tsx", .tsx),
    ("js", .javascript), ("jsx", .javascript), ("mjs", .javascript), ("cjs", .javascript),
    ("rs", .rust), ("py", .python), ("pyi", .python), ("go", .go)]

/-- The language of a file. -/
def ofPath? (path : String) : Option Language :=
  (extension? path).bind fun e => (extensions.find? (·.1 = e)).map (·.2)

end Language

/-- The extensions of text documents. -/
def textExtensions : List String :=
  ["md", "markdown", "yaml", "yml", "json", "toml"]

/-- Whether a file is a text document: an environment file, a lock file, or one with the extension
of a text document. -/
def isTextDocument (path : String) : Bool :=
  match fileName? path with
  | none => false
  | some name =>
    Text.startsWith name ".env" || Text.endsWith name ".lock" ||
      (extension? path).any (· ∈ textExtensions)

end CodeAtlas
