import CodeAudit.Path
/-!
# Languages

The languages whose sources are measured, told apart by the extension of a path. A language brings
its comment markers, which the line count reads, and its profile: the kinds of syntax nodes that the
complexity measures count.
-/
namespace CodeAudit

/-- A language that can be measured. -/
inductive Language where
  | typescript
  | tsx
  | javascript
  | rust
  | python
  | go
deriving DecidableEq, Repr, Inhabited

/--
The two markers of a block comment. One of them may be empty but not both, so that going from one
to the other and back always uses up some text.
-/
structure BlockMarkers where
  opening : List Char
  closing : List Char
  nonempty : opening ≠ [] ∨ closing ≠ []

/-- The markers with the given texts, unless both are empty. -/
def BlockMarkers.ofTexts? (opening closing : List Char) : Option BlockMarkers :=
  if h : opening ≠ [] ∨ closing ≠ [] then some ⟨opening, closing, h⟩ else none

/-- How comments and quoted spans are written. -/
structure CommentStyle where
  /-- Starts a comment that ends with the line. -/
  lineMarker : List Char
  /-- The markers of block comments, where the language has them. -/
  block : Option BlockMarkers
  /-- Characters that open and close a quoted span; a span ends with the line at the latest. -/
  quotes : List Char

/-- The kinds of nodes of a grammar that the complexity measures count. -/
structure Profile where
  /-- Branches and loops: one cyclomatic and one cognitive point. -/
  branches : List String
  /-- Arms of a switch or match: one cyclomatic point. -/
  cases : List String
  /-- Nodes whose operator may be a logical one. -/
  logical : List String
  /-- The logical operators: one cognitive point. -/
  operators : List String
  functions : List String
  classes : List String
  calls : List String
  comments : List String

namespace Profile

variable (p : Profile)

def isFunction (kind : String) : Bool := kind ∈ p.functions
def isClass (kind : String) : Bool := kind ∈ p.classes
def isBranch (kind : String) : Bool := kind ∈ p.branches
def isCase (kind : String) : Bool := kind ∈ p.cases
def isCall (kind : String) : Bool := kind ∈ p.calls
def isComment (kind : String) : Bool := kind ∈ p.comments

/-- Whether nodes of a kind may have a logical operator. -/
def isLogicalKind (kind : String) : Bool := kind ∈ p.logical

def isOperator (kind : String) : Bool := kind ∈ p.operators

end Profile

namespace Language

/-- All languages, in the order they are declared. -/
def all : List Language :=
  [typescript, tsx, javascript, rust, python, go]

def name : Language → String
  | typescript => "typescript"
  | tsx => "tsx"
  | javascript => "javascript"
  | rust => "rust"
  | python => "python"
  | go => "go"

/-- The language of an extension in lower case. -/
def ofExtension? (extension : String) : Option Language :=
  if extension ∈ ["ts", "mts", "cts"] then some typescript
  else if extension = "tsx" then some tsx
  else if extension ∈ ["js", "jsx", "mjs", "cjs"] then some javascript
  else if extension = "rs" then some rust
  else if extension ∈ ["py", "pyi"] then some python
  else if extension = "go" then some go
  else none

/-- The language of a path, by its extension; the case of ASCII letters does not count. -/
def ofPath? (p : Path) : Option Language :=
  p.extension?.bind fun ext => ofExtension? (String.ofList (ext.map Char.toLower))

/-- The markers `/*` and `*/`. -/
def starMarkers : BlockMarkers where
  opening := ['/', '*']
  closing := ['*', '/']
  nonempty := .inl (by decide)

/-- A single quote in the languages below. -/
def singleQuote : Char := '\x27'
/-- A double quote in the languages below. -/
def doubleQuote : Char := '\x22'
/-- The quote of template strings. -/
def backQuote : Char := '\x60'

/--
The comment style of a language. Where a single quote also starts a lifetime it cannot open a
quoted span.
-/
def commentStyle : Language → CommentStyle
  | python => ⟨['#'], none, [doubleQuote, singleQuote]⟩
  | rust => ⟨['/', '/'], some starMarkers, [doubleQuote]⟩
  | typescript | tsx | javascript | go =>
    ⟨['/', '/'], some starMarkers, [doubleQuote, singleQuote, backQuote]⟩

/-- The profile shared by the three dialects of one grammar family. -/
def ecmascriptProfile : Profile where
  branches := ["if_statement", "while_statement", "do_statement", "for_statement",
    "for_in_statement", "ternary_expression"]
  cases := ["switch_case"]
  logical := ["binary_expression"]
  operators := ["&&", "||"]
  functions := ["function_declaration", "function_expression", "function",
    "generator_function_declaration", "generator_function", "arrow_function", "method_definition"]
  classes := ["class_declaration", "abstract_class_declaration", "class"]
  calls := ["call_expression"]
  comments := ["comment"]

def rustProfile : Profile where
  branches := ["if_expression", "while_expression", "loop_expression", "for_expression"]
  cases := ["match_arm"]
  logical := ["binary_expression"]
  operators := ["&&", "||"]
  functions := ["function_item"]
  classes := ["struct_item", "impl_item", "trait_item"]
  calls := ["call_expression"]
  comments := ["line_comment", "block_comment"]

def pythonProfile : Profile where
  branches := ["if_statement", "elif_clause", "while_statement", "for_statement",
    "conditional_expression"]
  cases := ["case_clause"]
  logical := ["boolean_operator"]
  operators := ["and", "or"]
  functions := ["function_definition"]
  classes := ["class_definition"]
  calls := ["call"]
  comments := ["comment"]

def goProfile : Profile where
  branches := ["if_statement", "for_statement"]
  cases := ["expression_case", "type_case", "communication_case"]
  logical := ["binary_expression"]
  operators := ["&&", "||"]
  functions := ["function_declaration", "method_declaration", "func_literal"]
  classes := []
  calls := ["call_expression"]
  comments := ["comment"]

/-- The profile of a language. -/
def profile : Language → Profile
  | typescript | tsx | javascript => ecmascriptProfile
  | rust => rustProfile
  | python => pythonProfile
  | go => goProfile

end Language

end CodeAudit
