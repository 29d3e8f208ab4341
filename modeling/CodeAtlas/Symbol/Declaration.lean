import CodeAtlas.ParseTree
import CodeAtlas.Symbol.Basic
import CodeAtlas.Symbol.Language

/-!
# Declarations

The declarations of a source file are read off its parse tree. A table says for each language which
kinds of nodes declare something, and how. Function bodies are never entered. Members that stand
apart from their type (in an implementation block, or as a method with a receiver) are collected
with the name of their owner, and attached to it in the end.

* `Rule` and `ruleFor` — how a node declares something, and the table.
* `Found` — declarations in their places, and members apart from their owners.
* `Found.visit` — what a node declares, with everything below it that counts.
* `declarations` — the symbols of a file.
-/

namespace CodeAtlas

open CodeAtlas.Text

/-- How a node declares something. -/
inductive Rule where
  /-- a name, without members -/
  | leaf (kind : SymbolKind)
  /-- a name whose body holds its members -/
  | container (kind : SymbolKind)
  /-- members of a type that is declared elsewhere -/
  | implementation
  /-- a member of the type of its receiver -/
  | receiverMethod
  /-- what the nodes inside declare -/
  | wrapper
  /-- a list of variables -/
  | bindings
  /-- a list of types -/
  | typeSpecs
  /-- what the nodes of the body declare -/
  | inside
  deriving DecidableEq

namespace Language

/-- The rules of each language, by the kinds of nodes. -/
def rules : Language → List (String × Rule)
  | .rust =>
    [("function_item", .leaf .function), ("function_signature_item", .leaf .function),
      ("struct_item", .leaf .structType), ("union_item", .leaf .structType),
      ("enum_item", .leaf .enumType), ("trait_item", .container .traitType),
      ("type_item", .leaf .typeName), ("const_item", .leaf .constant),
      ("static_item", .leaf .constant), ("impl_item", .implementation), ("mod_item", .inside)]
  | .python =>
    [("function_definition", .leaf .function), ("class_definition", .container .classType),
      ("decorated_definition", .wrapper), ("expression_statement", .bindings)]
  | .go =>
    [("function_declaration", .leaf .function), ("method_declaration", .receiverMethod),
      ("type_declaration", .typeSpecs), ("const_declaration", .bindings),
      ("var_declaration", .bindings)]
  | _ =>
    [("function_declaration", .leaf .function), ("generator_function_declaration", .leaf .function),
      ("class_declaration", .container .classType),
      ("abstract_class_declaration", .container .classType), ("class", .container .classType),
      ("interface_declaration", .leaf .interfaceType), ("type_alias_declaration", .leaf .typeName),
      ("enum_declaration", .leaf .enumType), ("method_definition", .leaf .method),
      ("method_signature", .leaf .method), ("abstract_method_signature", .leaf .method),
      ("lexical_declaration", .bindings), ("variable_declaration", .bindings),
      ("export_statement", .wrapper)]

/-- The rule for a kind of nodes. -/
def ruleFor (l : Language) (kind : String) : Option Rule :=
  (l.rules.find? (·.1 = kind)).map (·.2)

end Language

/-! ## Names and signatures -/

/-- How many characters of a declaration's first line are kept. -/
def signatureChars : Nat := 200

/-- The first line of a text up to the first opening brace, without outer blanks. -/
def firstLine (text : String) : String :=
  let line := (lines text).headD ""
  trim (String.ofList (line.toList.takeWhile (· ≠ '\x7b')))

/-- The first line of a declaration. -/
def signatureOf (s : Source) (t : ParseTree) : String :=
  truncate (firstLine (s.textOf t)) signatureChars

/-- The symbol that a node declares under a name. -/
def symbolAt (s : Source) (name : String) (kind : SymbolKind) (t : ParseTree) : Symbol :=
  .mk name kind (t.span.startRow + 1) (t.span.endRow + 1) (signatureOf s t) []

/-- The kind of a declaration, which is another one for functions inside a type. -/
def placedKind (inType : Bool) (kind : SymbolKind) : SymbolKind :=
  if inType then kind.asMember else kind

/-- Without repetitions of `lead` at the start. `fuel` is at least their number. -/
def dropRepeated (lead : List Char) : Nat → List Char → List Char
  | 0, cs => cs
  | fuel + 1, cs =>
    match dropLead? lead cs with
    | some rest => dropRepeated lead fuel rest
    | none => cs

/-- What stands after the last occurrence of `mark`; all of it without one. `fuel` is at least the
number of occurrences. -/
def afterLast (mark : List Char) : Nat → List Char → List Char
  | 0, cs => cs
  | fuel + 1, cs =>
    match splitAtMark? mark cs with
    | some (_, rest) => afterLast mark fuel rest
    | none => cs

/-- The bare name of a type: without references and pointers in front, without arguments in
brackets, and without the path to it. -/
def bareTypeName (written : String) : String :=
  let cs := written.toList.dropWhile fun c => c = '&' || c = '*' || c = ' '
  let cs := dropRepeated "mut ".toList cs.length cs
  let cs := cs.takeWhile fun c => c ≠ '<' && c ≠ '['
  let cs := afterLastPair cs
  let cs := afterLast ['.'] cs.length cs
  trim (String.ofList cs)
where
  /-- What stands after the last pair of colons, pairs being found from the end. -/
  afterLastPair (cs : List Char) : List Char :=
    match splitAtMark? [':', ':'] cs.reverse with
    | some (last, _) => last.reverse
    | none => cs

/-- Whether a name is written in capitals, digits and underscores, with a capital among them. -/
def isScreaming (name : String) : Bool :=
  name.toList.any Char.isAlpha &&
    name.toList.all fun c => c.isUpper || c.isDigit || c = '_'

/-! ## Lists of declarations -/

/-- The kinds of values that make a variable a function. -/
def functionValues : List String :=
  ["arrow_function", "function_expression", "function"]

/-- The kind of a script variable: that of its value, if it is a function or a class. -/
def scriptBindingKind (isConst : Bool) (value : Option String) : SymbolKind :=
  match value with
  | some kind =>
    if kind ∈ functionValues then .function
    else if kind = "class" then .classType
    else if isConst then .constant else .binding
  | none => if isConst then .constant else .binding

/-- The variables of a script declaration. Each one shows the first line of the whole declaration.
-/
def scriptBindings (s : Source) (inType : Bool) (t : ParseTree) : List Symbol :=
  let isConst := t.children.head?.any (·.kind = "const")
  t.items.filterMap fun declarator =>
    if declarator.kind ≠ "variable_declarator" then none
    else
      match declarator.child? "name" with
      | none => none
      | some name =>
        if name.kind ≠ "identifier" then none
        else
          let kind := scriptBindingKind isConst ((declarator.child? "value").map (·.kind))
          some ((symbolAt s (s.textOf name) (placedKind inType kind) declarator).withSignature
            (signatureOf s t))

/-- The variables that a Python statement assigns. -/
def pythonBindings (s : Source) (t : ParseTree) : List Symbol :=
  t.items.filterMap fun assignment =>
    if assignment.kind ≠ "assignment" then none
    else
      match assignment.child? "left" with
      | none => none
      | some left =>
        if left.kind ≠ "identifier" then none
        else
          let name := s.textOf left
          some (symbolAt s name (if isScreaming name then .constant else .binding) assignment)

/-- The constants or variables of a Go declaration. -/
def goBindings (s : Source) (t : ParseTree) : List Symbol :=
  let kind : SymbolKind := if t.kind = "const_declaration" then .constant else .binding
  t.items.filterMap fun spec =>
    if spec.kind ≠ "const_spec" && spec.kind ≠ "var_spec" then none
    else (s.fieldText? spec "name").map fun name => symbolAt s name kind spec

/-- The variables of a declaration. -/
def bindingsOf (l : Language) (s : Source) (inType : Bool) (t : ParseTree) : List Symbol :=
  match l with
  | .typescript => scriptBindings s inType t
  | .tsx => scriptBindings s inType t
  | .javascript => scriptBindings s inType t
  | .python => pythonBindings s t
  | .go => goBindings s t
  | .rust => []

/-- The kind of a Go type by the form of its definition. -/
def goTypeKind (definition : Option String) : SymbolKind :=
  if definition = some "struct_type" then .structType
  else if definition = some "interface_type" then .interfaceType
  else .typeName

/-- The types of a Go declaration. Inside a group the word `type` is put in front of their first
line. -/
def goTypes (s : Source) (t : ParseTree) : List Symbol :=
  t.items.filterMap fun spec =>
    if spec.kind ≠ "type_spec" && spec.kind ≠ "type_alias" then none
    else (s.fieldText? spec "name").map fun name =>
      let symbol := symbolAt s name (goTypeKind ((spec.child? "type").map (·.kind))) spec
      if startsWith symbol.signature "type " then symbol
      else symbol.withSignature ("type " ++ symbol.signature)

/-- The names that an export clause makes visible, under their new names. -/
def exportedNames (s : Source) (t : ParseTree) : List Symbol :=
  t.items.flatMap fun clause =>
    if clause.kind ≠ "export_clause" then []
    else clause.items.filterMap fun spec =>
      if spec.kind ≠ "export_specifier" then none
      else
        match (spec.child? "alias").or (spec.child? "name") with
        | none => none
        | some name =>
          some ((symbolAt s (s.textOf name) .exported spec).withSignature (signatureOf s t))

/-- The type that a Go method belongs to. -/
def receiverType? (s : Source) (t : ParseTree) : Option String := do
  let receiver ← t.child? "receiver"
  let parameter ← receiver.items.find? (·.kind = "parameter_declaration")
  let type ← parameter.child? "type"
  let name := bareTypeName (s.textOf type)
  if name = "" then none else some name

/-! ## All declarations -/

/-- Declarations in their places, and members that stand apart from the types named with them. -/
structure Found where
  /-- the declarations in their places -/
  placed : List Symbol
  /-- the members apart from their owners -/
  detached : List (String × Symbol)

namespace Found

/-- No declaration at all. -/
def nothing : Found := ⟨[], []⟩

/-- One declaration in its place. -/
def one (symbol : Symbol) : Found := ⟨[symbol], []⟩

/-- What two parts of a file declare, one after the other. -/
def append (a b : Found) : Found :=
  ⟨a.placed ++ b.placed, a.detached ++ b.detached⟩

/-- What the parts of a file declare. -/
def concat (parts : List Found) : Found :=
  ⟨parts.flatMap placed, parts.flatMap detached⟩

/-- Members that belong to a type declared elsewhere. -/
def detach (owner : String) (f : Found) : Found :=
  ⟨[], f.detached ++ f.placed.map (owner, ·)⟩

/-- What a node declares, with everything below it that counts; `inType` tells that it stands in the
body of a type. -/
def visit (l : Language) (s : Source) (inType : Bool) (t : ParseTree) : Found :=
  match l.ruleFor t.kind with
  | none => nothing
  | some (.leaf kind) =>
    match s.fieldText? t "name" with
    | some name => one (symbolAt s name (placedKind inType kind) t)
    | none => nothing
  | some (.container kind) =>
    match s.fieldText? t "name" with
    | some name =>
      let inner := concat (t.bodyItems.attach.map fun ⟨item, _⟩ => visit l s true item)
      ⟨[(symbolAt s name kind t).withMembers inner.placed], inner.detached⟩
    | none => nothing
  | some .implementation =>
    match t.child? "type" with
    | some type =>
      detach (bareTypeName (s.textOf type))
        (concat (t.bodyItems.attach.map fun ⟨item, _⟩ => visit l s true item))
    | none => nothing
  | some .receiverMethod =>
    match s.fieldText? t "name" with
    | some name =>
      let symbol := symbolAt s name .method t
      match receiverType? s t with
      | some owner => detach owner (one symbol)
      | .none => one symbol
    | none => nothing
  | some .wrapper =>
    let inner := concat (t.items.attach.map fun ⟨item, _⟩ => visit l s inType item)
    if l = .python then inner else inner.append ⟨exportedNames s t, []⟩
  | some .bindings => ⟨bindingsOf l s inType t, []⟩
  | some .typeSpecs => ⟨goTypes s t, []⟩
  | some .inside => concat (t.bodyItems.attach.map fun ⟨item, _⟩ => visit l s inType item)
termination_by sizeOf t
decreasing_by
  · next h => exact ParseTree.sizeOf_lt_of_mem_bodyItems h
  · next h => exact ParseTree.sizeOf_lt_of_mem_bodyItems h
  · next h => exact ParseTree.sizeOf_lt_of_mem_items h
  · next h => exact ParseTree.sizeOf_lt_of_mem_bodyItems h

/-- What the nodes below a root declare. -/
def ofRoot (l : Language) (s : Source) (root : ParseTree) : Found :=
  concat (root.items.map (visit l s false))

end Found

/-- Gives a member to the first symbol of its owner's name that may own members; without such a
symbol the member stands at the top level itself. -/
def attach (top : List Symbol) (owner : String) (member : Symbol) : List Symbol :=
  match top with
  | [] => [member]
  | symbol :: rest =>
    if symbol.name = owner && symbol.kind.ownsMembers then
      symbol.withMembers (symbol.members ++ [member]) :: rest
    else symbol :: attach rest owner member

/-- The symbols of a file: its declarations with the detached members attached, every level in the
order of the lines. -/
def declarations (l : Language) (s : Source) (root : ParseTree) : List Symbol :=
  let found := Found.ofRoot l s root
  Symbol.sortLevels (found.detached.foldl (fun top (owner, member) => attach top owner member)
    found.placed)

end CodeAtlas
