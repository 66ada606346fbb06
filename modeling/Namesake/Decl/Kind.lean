import Namesake.Decl.Basic
import Namesake.Diagnostic

/-
  This file defines which declarations can be repeated under
  another name, and which name identifies each of them.

  Key definitions include:
    * `Kind`
    * `Decl.Locator`
    * `Decl.classify`
    * `Decl.identifier?`
    * `Decl.rename`
-/

namespace Namesake

------------------------------------------------------------
-- Kinds
------------------------------------------------------------

/- The kinds of declarations that can be repeated. -/
inductive Kind where
  | function
  | structType
  | interfaceType
  | method
  | constant
deriving DecidableEq, Repr

namespace Kind

/- All kinds, in the order of their numbers, which start at one. -/
def all : List Kind :=
  [.function, .structType, .interfaceType, .method, .constant]

/- The kind of a number. -/
def ofCode?
    (code : Int) : Option Kind :=
  if code ≤ 0 then none else all[(code - 1).toNat]?

/- The name of a kind. -/
def name : Kind → Bytes
  | .function => utf8 "KindFunction"
  | .structType => utf8 "KindStructure"
  | .interfaceType => utf8 "KindContract"
  | .method => utf8 "KindImplementation"
  | .constant => utf8 "KindConstant"

/- The wording for a kind. -/
def describe : Kind → Bytes
  | .function => utf8 "function"
  | .structType => utf8 "struct type"
  | .interfaceType => utf8 "interface type"
  | .method => utf8 "method"
  | .constant => utf8 "constant"

/- The name of a number that belongs to no kind. -/
def unnamed
    (code : Int) : Bytes :=
  utf8 "Kind(" ++ Bytes.ofInt code ++ utf8 ")"

end Kind

namespace Decl

------------------------------------------------------------
-- Classification
------------------------------------------------------------

/- The parts of a declaration that diagnostics point at. -/
inductive Part where
  | whole
  | receiver
deriving DecidableEq, Repr

/- Where the parts of a declaration stand. -/
abbrev Locator :=
  Part → Span

/- The locator of a declaration without positions. -/
def Locator.unknown : Locator :=
  fun _ => {}

/- A count with a noun for a message. -/
def counted
    (n : Nat)
    (noun : String) : Bytes :=
  Bytes.ofNat n ++ utf8 " " ++ utf8 noun

/- The kind of a type declaration, or why it has none. -/
def typeKind
    (specs : List Spec) : Except Bytes Kind :=
  match specs with
  | [.typeSpec name assign expr] =>
      if assign then
        .error (utf8 "type alias " ++ name)
      else if expr.isStruct then
        .ok .structType
      else if expr.isInterface then
        .ok .interfaceType
      else
        .error
          (utf8 "type " ++ name ++
            utf8 " is neither a struct nor an interface")
  | [_] => .error (utf8 "malformed type declaration")
  | specs =>
      .error
        (utf8 "grouped type declaration with " ++
          counted specs.length "specs")

/- The kind of a constant declaration, or why it has none. -/
def constKind
    (specs : List Spec) : Except Bytes Kind :=
  match specs with
  | [.valueSpec [_]] => .ok .constant
  | [.valueSpec names] =>
      .error
        (utf8 "const declaration with " ++ counted names.length "names")
  | [_] => .error (utf8 "malformed const declaration")
  | specs =>
      .error
        (utf8 "grouped const declaration with " ++
          counted specs.length "specs")

/- The kind of a declaration other than a function. -/
def generalKind
    (keyword : Keyword)
    (specs : List Spec) : Except Bytes Kind :=
  match keyword with
  | .typeKeyword => typeKind specs
  | .constKeyword => constKind specs
  | keyword => .error (keyword.spelling ++ utf8 " declaration")

/- The diagnostic of a declaration that cannot be repeated. -/
def unsupported
    (locate : Locator)
    (what : Bytes) : Diagnostic :=
  { severity := .error
    code := Diagnostic.unsupportedDeclaration
    message := utf8 "unsupported declaration: " ++ what
    span := locate .whole
    suggestions :=
      [utf8
        "aliases apply to functions, methods, struct types, interface types and single constants"] }

/- The diagnostic of a method without a receiver. -/
def emptyReceiver
    (locate : Locator)
    (name : Bytes) : Diagnostic :=
  { severity := .error
    code := Diagnostic.malformedSelfType
    message :=
      utf8 "method " ++ name ++ utf8 " has an empty receiver list"
    span := locate .whole }

/- The diagnostic of a method whose receiver has no type name. -/
def unnamedReceiver
    (locate : Locator)
    (name : Bytes) : Diagnostic :=
  { severity := .error
    code := Diagnostic.malformedSelfType
    message :=
      utf8 "receiver type of method " ++ name ++
        utf8 " is not a named type"
    span := locate .receiver }

/- The kind of a declaration, or a diagnostic if it has none. -/
def classify
    (d : Decl)
    (locate : Locator) : Except Diagnostic Kind :=
  match d.body with
  | .func _ none => .ok .function
  | .func name (some []) => .error (emptyReceiver locate name)
  | .func name (some (receiver :: _)) =>
      match receiver.leading? with
      | some _ => .ok .method
      | none => .error (unnamedReceiver locate name)
  | .general keyword specs =>
      match generalKind keyword specs with
      | .ok kind => .ok kind
      | .error what => .error (unsupported locate what)
  | .bad => .error (unsupported locate (utf8 "malformed declaration"))

------------------------------------------------------------
-- Identifying Names
------------------------------------------------------------

/- The name that identifies a declaration of a kind. -/
def identifier? : Body → Option Bytes
  | .func name none => some name
  | .func _ (some (receiver :: _)) => receiver.leading?
  | .general .typeKeyword [.typeSpec name _ _] => some name
  | .general .constKeyword [.valueSpec [name]] => some name
  | _ => none

/- The identifying name of a declaration; empty if it has none. -/
def identifier
    (d : Decl) : Bytes :=
  (identifier? d.body).getD []

/- Replace the identifying name of what is declared. -/
def renameBody
    (name : Bytes) : Body → Body
  | .func _ none => .func name none
  | .func method (some (receiver :: rest)) =>
      .func method (some (receiver.withLeading name :: rest))
  | .general .typeKeyword [.typeSpec _ assign expr] =>
      .general .typeKeyword [.typeSpec name assign expr]
  | .general .constKeyword [.valueSpec [_]] =>
      .general .constKeyword [.valueSpec [name]]
  | body => body

/- Replace the identifying name of a declaration. -/
def rename
    (d : Decl)
    (name : Bytes) : Decl :=
  { d with body := renameBody name d.body }

/- The text of a declaration under its current name. -/
def text
    (d : Decl) : Bytes :=
  match d.written.tail with
  | some tail => d.written.head ++ d.identifier ++ tail
  | none => d.written.head

end Decl

end Namesake
