import CodeAtlas.Cache.Store
import CodeAtlas.Document
import CodeAtlas.Embedding.Batching
import CodeAtlas.Walk

/-!
# The corpus

The corpus is what one walk of the tree finds: the documents of all files that can be indexed, their
identifiers, and the sources of the code files. Both indexes are made from one corpus.

* `Indexer` — what it takes to read files and to embed what is in them.
* `Indexer.read` — what one file gives. A file in no known language, one that is too large, one that
  is not text and one that is blank give nothing. A source file that cannot be parsed counts as a
  text file if its name allows that.
* `Indexer.collect` — the corpus of a disk.
-/

namespace CodeAtlas

open CodeAtlas.Path CodeAtlas.Unicode

/-- What it takes to make indexes. The provider has states `σ`. -/
structure Indexer (σ : Type) where
  /-- the root that names are relative to -/
  root : Root
  /-- how ignore rules are read -/
  rules : SkipRules
  /-- the parser -/
  parser : Parser
  /-- whoever makes vectors -/
  provider : Provider σ Embedding
  /-- how texts are sent to the provider -/
  batching : Batching
  /-- where vectors are kept -/
  store : CacheStore
  /-- how many characters of a document are used -/
  documentChars : Nat
  /-- the size above which a file is left out -/
  fileBytes : Nat

/-- What a file gives. -/
inductive FileReading where
  /-- a source file: its document, its identifiers, and its text -/
  | code (document : Document) (identifiers : List Identifier) (source : String)
  /-- a text file: its document -/
  | text (document : Document)
  /-- nothing that can be indexed -/
  | skipped

namespace FileReading

/-- The document of a file. -/
def document? : FileReading → Option Document
  | .code document _ _ => some document
  | .text document => some document
  | .skipped => none

/-- The identifiers of a file. -/
def identifiers : FileReading → List Identifier
  | .code _ identifiers _ => identifiers
  | .text _ => []
  | .skipped => []

/-- The path and the text of a source file. -/
def source? : FileReading → Option (String × String)
  | .code document _ source => some (document.path, source)
  | .text _ => none
  | .skipped => none

/-- Whether a file gives nothing. -/
def isSkipped : FileReading → Bool
  | .code .. => false
  | .text _ => false
  | .skipped => true

end FileReading

/-- What is found in the tree. -/
structure Corpus where
  /-- the documents, by the names of the files -/
  documents : List Document
  /-- the identifiers, file by file -/
  identifiers : List Identifier
  /-- the sources of the code files -/
  sources : Std.TreeMap String String
  /-- how many files were looked at -/
  scanned : Nat
  /-- how many of them gave nothing -/
  skipped : Nat

instance : Inhabited Corpus := ⟨⟨[], [], ∅, 0, 0⟩⟩

/-- The corpus of what some files give. -/
def Corpus.ofReadings (readings : List FileReading) : Corpus where
  documents := readings.filterMap FileReading.document?
  identifiers := readings.flatMap FileReading.identifiers
  sources := Std.TreeMap.ofList (readings.filterMap FileReading.source?)
  scanned := readings.length
  skipped := readings.countP FileReading.isSkipped

namespace Indexer

variable {σ : Type}

/-- The text of a file that is not too large. -/
def text? (ix : Indexer σ) (d : Disk) (path : String) : Option String :=
  match d.read path with
  | .error _ => none
  | .ok bytes => if bytes.size ≤ ix.fileBytes then String.fromUTF8? bytes else none

/-- What the file of a name gives. -/
def read (ix : Indexer σ) (d : Disk) (name path : String) : FileReading :=
  let isCode := (Language.ofPath? path).isSome
  if !isCode && !isTextDocument path then .skipped
  else
    match ix.text? d path with
    | none => .skipped
    | some source =>
      let text := FileReading.text (Document.ofText name source ix.documentChars)
      if source.toList.all isBlank then .skipped
      else if isCode then
        match Analysis.ofSource ix.parser path source with
        | .ok analysis =>
          .code (Document.ofAnalysis name analysis ix.documentChars) (identifiersOf name analysis)
            source
        | .error _ => if isTextDocument path then text else .skipped
      else text

/-- The corpus of a disk. -/
def collect (ix : Indexer σ) (d : Disk) : Corpus :=
  .ofReadings ((d.walk (ix.rules d) ix.root {}).map fun found => ix.read d found.name found.path)

end Indexer

end CodeAtlas
