/-!
# Classes

Every class but the root lies below other classes, and an instance of a class is one of all the
classes above it too. A class is told from others by its module and its qualified name, which also
names what it is defined in.

## Main definitions

- `ObjectClass` — a class, with the classes above it
- `ObjectClass.known` — a general class or one of those for climbing, by its qualified name
- `ObjectClass.isBelow` — whether a class is another one or lies below it

## Design notes

Every known class has one parent at most, and these are listed here. Any other class is given by its own
record, with any number of classes above it, so nothing depends on the list being complete.
-/

namespace Precedence

/-- A class: its own name, its qualified name, its module, which is empty for a general class, and the
paths of the classes above it. -/
structure ObjectClass where
  name : String
  qualifiedName : String
  moduleName : String
  above : List String
deriving Repr, DecidableEq, Inhabited

/-! ### Known classes -/

/-- The known classes whose parent is not the root class, each with its parent. -/
def classParents : List (String × String) :=
  [("bool", "int"),
   ("Exception", "BaseException"), ("GeneratorExit", "BaseException"),
   ("KeyboardInterrupt", "BaseException"), ("SystemExit", "BaseException"),
   ("ArithmeticError", "Exception"), ("AssertionError", "Exception"),
   ("AttributeError", "Exception"), ("BufferError", "Exception"), ("EOFError", "Exception"),
   ("ImportError", "Exception"), ("LookupError", "Exception"), ("MemoryError", "Exception"),
   ("NameError", "Exception"), ("OSError", "Exception"), ("ReferenceError", "Exception"),
   ("RuntimeError", "Exception"), ("StopAsyncIteration", "Exception"),
   ("StopIteration", "Exception"), ("SyntaxError", "Exception"), ("SystemError", "Exception"),
   ("TypeError", "Exception"), ("ValueError", "Exception"), ("Warning", "Exception"),
   ("FloatingPointError", "ArithmeticError"), ("OverflowError", "ArithmeticError"),
   ("ZeroDivisionError", "ArithmeticError"), ("ModuleNotFoundError", "ImportError"),
   ("IndexError", "LookupError"), ("KeyError", "LookupError"), ("UnboundLocalError", "NameError"),
   ("BlockingIOError", "OSError"), ("ChildProcessError", "OSError"),
   ("ConnectionError", "OSError"), ("FileExistsError", "OSError"),
   ("FileNotFoundError", "OSError"), ("InterruptedError", "OSError"),
   ("IsADirectoryError", "OSError"), ("NotADirectoryError", "OSError"),
   ("PermissionError", "OSError"), ("ProcessLookupError", "OSError"), ("TimeoutError", "OSError"),
   ("BrokenPipeError", "ConnectionError"), ("ConnectionAbortedError", "ConnectionError"),
   ("ConnectionRefusedError", "ConnectionError"), ("ConnectionResetError", "ConnectionError"),
   ("NotImplementedError", "RuntimeError"), ("RecursionError", "RuntimeError"),
   ("IndentationError", "SyntaxError"), ("TabError", "IndentationError"),
   ("UnicodeError", "ValueError"), ("UnicodeDecodeError", "UnicodeError"),
   ("UnicodeEncodeError", "UnicodeError"), ("UnicodeTranslateError", "UnicodeError"),
   ("BytesWarning", "Warning"), ("DeprecationWarning", "Warning"), ("EncodingWarning", "Warning"),
   ("FutureWarning", "Warning"), ("ImportWarning", "Warning"),
   ("PendingDeprecationWarning", "Warning"), ("ResourceWarning", "Warning"),
   ("RuntimeWarning", "Warning"), ("SyntaxWarning", "Warning"), ("UnicodeWarning", "Warning"),
   ("UserWarning", "Warning"),
   ("error", "Exception"), ("FrozenInstanceError", "AttributeError"),
   ("PrecClimber.DefinitionError", "Exception"), ("Lexer.DefinitionError", "Exception"),
   ("ClimbError", "Exception"), ("EmptyInput", "ClimbError"), ("MissingOperand", "ClimbError"),
   ("CalcError", "ClimbError"), ("ExcessPair", "CalcError")]

/-- The known classes that are not general ones, each with its module. -/
def classModules : List (String × String) :=
  [("error", "re"), ("FrozenInstanceError", "dataclasses"), ("ClimbError", "climb"),
   ("EmptyInput", "climb"), ("MissingOperand", "climb"), ("PrecClimber.DefinitionError", "climb"),
   ("Lexer.DefinitionError", "climb.lex"), ("CalcError", "climb.calc"), ("ExcessPair", "climb.calc")]

/-- The parent of a known class; only the root class has none. -/
def parentClass? (name : String) : Option String :=
  match classParents.lookup name with
  | some parent => some parent
  | none => if name = "object" then none else some "object"

/-- The class itself and at most `fuel` classes above it. -/
def classChain : Nat → String → List String
  | 0, name => [name]
  | fuel + 1, name =>
    match parentClass? name with
    | some parent => name :: classChain fuel parent
    | none => [name]

/-- A known class and all classes above it, from the class up to the root. No chain of parents is
longer than the list of them. -/
def classAncestors (name : String) : List String :=
  classChain (classParents.length + 1) name

/-- Whether the first of two known classes is the second one or lies below it. -/
def isSubclass (name ancestor : String) : Bool :=
  (classAncestors name).contains ancestor

/-- Whether a known class is that of a misplaced pair. -/
def isClimbErrorClass (name : String) : Bool :=
  isSubclass name "ClimbError"

/-! ### Classes as values -/

/-- A qualified name with its module, if there is one. -/
def dottedPath (moduleName qualifiedName : String) : String :=
  if moduleName = "" then qualifiedName else moduleName ++ "." ++ qualifiedName

/-- The module of a known class. -/
def moduleOf (name : String) : String :=
  (classModules.lookup name).getD ""

/-- The part of a name after its last dot. -/
def unqualified (name : String) : String :=
  (name.splitOn ".").getLast?.getD name

namespace ObjectClass

/-- The known class of a qualified name. -/
def known (name : String) : ObjectClass where
  name := unqualified name
  qualifiedName := name
  moduleName := moduleOf name
  above := (classAncestors name).tail.map fun ancestor => dottedPath (moduleOf ancestor) ancestor

/-- A known class is written as its qualified name. -/
instance : Coe String ObjectClass := ⟨known⟩

/-- What tells a class from others. -/
def path (c : ObjectClass) : String :=
  dottedPath c.moduleName c.qualifiedName

/-- Whether a class is another one or lies below it. -/
def isBelow (c ancestor : ObjectClass) : Bool :=
  c.path == ancestor.path || c.above.contains ancestor.path

/-- The notation of a class. -/
def shown (c : ObjectClass) : String :=
  "<class '" ++ c.path ++ "'>"

end ObjectClass

end Precedence
