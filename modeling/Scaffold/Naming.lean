import Scaffold.Text.Blank
import Scaffold.Text.Case

namespace Scaffold

inductive MethodFormat where
  | snake
  | camel
  deriving DecidableEq, Repr

namespace Naming

open Text

/-- Every test method's name starts with this. -/
def testMarker : List Char := ['t', 'e', 's', 't']

/-- A test class is named after the tested class with this at the end. -/
def testClassSuffix : String := "Test"

def upperFirst : List Char → List Char
  | [] => []
  | c :: cs => upperChar c ++ cs

def lowerFirst : List Char → List Char
  | [] => []
  | c :: cs => lowerChar c ++ cs

/-- Puts an underscore before every ASCII capital. -/
def markCapitals (cs : List Char) : List Char :=
  cs.flatMap fun c => if c.isUpper then ['_', c] else [c]

/-- Puts an underscore before every ASCII capital but a leading one. -/
def markInnerCapitals : List Char → List Char
  | [] => []
  | c :: cs => c :: markCapitals cs

/-- `fooBar` becomes `foo_bar`; a word of ASCII lowercase letters stays as it is. -/
def snakeChars (cs : List Char) : List Char :=
  if !cs.isEmpty && cs.all Char.isLower then cs
  -- Underscores are put in before the letters become small: the capitals mark the words.
  else lower (markInnerCapitals ((words cs).flatMap upperFirst))

def isSeparator (c : Char) : Bool :=
  c == '_' || c == '-' || isBlank c

/-- `foo_bar-baz qux` becomes `FooBarBazQux`. -/
def pascalChars (cs : List Char) : List Char :=
  (splitWhere isSeparator cs).flatMap upperFirst

/-- `foo_bar` becomes `fooBar`. -/
def camelChars (cs : List Char) : List Char :=
  lowerFirst (pascalChars cs)

def normalizeChars (format : MethodFormat) (cs : List Char) : List Char :=
  match format with
  | .snake => snakeChars cs
  | .camel => camelChars cs

/-- The name of the test for a method: `fooBar` gives `test_foo_bar` or `testFooBar`. -/
def testNameChars (format : MethodFormat) (method : List Char) : List Char :=
  normalizeChars format (testMarker ++ '_' :: snakeChars method)

def snakeCase (s : String) : String := .ofList (snakeChars s.toList)

def pascalCase (s : String) : String := .ofList (pascalChars s.toList)

def camelCase (s : String) : String := .ofList (camelChars s.toList)

def normalize (format : MethodFormat) (name : String) : String :=
  .ofList (normalizeChars format name.toList)

def testMethodName (format : MethodFormat) (method : String) : String :=
  .ofList (testNameChars format method.toList)

def isTestName (name : String) : Bool :=
  testMarker.isPrefixOf name.toList

end Naming

end Scaffold
