import Namesake.Alias.Basic
import Namesake.Diagnostic
import Namesake.Scanner.Basic
import Namesake.Spelling

/-
  This file defines the reading of directive arguments, such
  as `(A, deprecated(B, since = "1.0.0", note = "use A"),)`.

  The arguments are read by an automaton on tokens.  A state
  says what has been read, `Reader.step` takes one token, and
  the first token without a step is the error.

  Key definitions include:
    * `Arguments.Stream`
    * `Arguments.Cause`
    * `Arguments.State`
    * `Arguments.step`
    * `Arguments.read`
    * `Alias.parse`
-/

namespace Namesake

namespace Arguments

------------------------------------------------------------
-- Token Streams
------------------------------------------------------------

/- How the tokens of a text end: properly, or with a fault. -/
inductive Ending where
  | finished (offset : Nat)
  | fault (f : Fault)
deriving DecidableEq, Repr

/- The tokens before the end of the text or before a fault. -/
structure Stream where
  tokens : List Token
  ending : Ending
deriving DecidableEq, Repr

/-
  The stream of a list of scanned tokens.  Comments and
  implied semicolons are left out.
-/
def Stream.ofLexed : List Scanner.Lexed → Stream
  | [] => ⟨[], .finished 0⟩
  | t :: ts =>
      match t.faults with
      | f :: _ => ⟨[], .fault f⟩
      | [] =>
          if t.token.kind = .eof then
            ⟨[], .finished t.token.offset⟩
          else
            let s := ofLexed ts
            if t.token.kind = .comment || t.token.isImplied then
              s
            else
              { s with tokens := t.token :: s.tokens }

/- The stream of a text. -/
def Stream.ofText
    (src : Bytes) : Stream :=
  .ofLexed (Scanner.tokens src)

------------------------------------------------------------
-- Words
------------------------------------------------------------

/- The word that opens a deprecated entry. -/
def deprecatedWord : Bytes :=
  utf8 "deprecated"

/- The keys of a deprecated entry. -/
inductive Key where
  | since
  | note
deriving DecidableEq, Repr

namespace Key

/- The spelling of a key. -/
def name : Key → Bytes
  | .since => utf8 "since"
  | .note => utf8 "note"

/- The key with a given spelling. -/
def ofName?
    (s : Bytes) : Option Key :=
  if s = Key.since.name then some .since
  else if s = Key.note.name then some .note
  else none

/- Set the text of a key; a repeated key counts once, with its last text. -/
def set
    (d : Deprecation)
    (value : Bytes) : Key → Deprecation
  | .since => { d with since := some value }
  | .note => { d with note := some value }

end Key

------------------------------------------------------------
-- Errors
------------------------------------------------------------

/- How a message shows the token it complains about. -/
def found
    (t : Token) : Bytes :=
  match t.kind with
  | .eof => utf8 "end of directive"
  | .ident => utf8 "identifier " ++ t.text
  | .string | .int | .float | .char | .imag => t.text
  | k => utf8 "'" ++ utf8 k.spelling ++ utf8 "'"

/- What is wrong with directive arguments. -/
inductive Cause where
  | scan (cause : Fault.Cause)
  | opening (token : Token)
  | aliasName (token : Token)
  | separator (name : Bytes) (token : Token)
  | noAlias
  | trailing (token : Token)
  | deprecatedOpening (token : Token)
  | deprecatedName (token : Token)
  | deprecatedSeparator (name : Bytes) (token : Token)
  | key (token : Token)
  | unknownKey (key : Bytes)
  | assign (key : Key) (token : Token)
  | value (key : Key) (token : Token)
  | literal (key : Key)
deriving DecidableEq, Repr

namespace Cause

/- The wording of an error. -/
def message : Cause → Bytes
  | .scan cause => cause.message
  | .opening t =>
      utf8 "expected '(' after directive name, found " ++ found t
  | .aliasName t => utf8 "expected alias name, found " ++ found t
  | .separator name t =>
      utf8 "expected ',' or ')' after alias " ++ name ++
        utf8 ", found " ++ found t
  | .noAlias => utf8 "expected at least one alias"
  | .trailing t =>
      utf8 "unexpected " ++ found t ++ utf8 " after closing ')'"
  | .deprecatedOpening t =>
      utf8 "expected '(' after deprecated, found " ++ found t
  | .deprecatedName t =>
      utf8 "expected alias name in deprecated(...), found " ++ found t
  | .deprecatedSeparator name t =>
      utf8 "expected ',' or ')' in deprecated(" ++ name ++
        utf8 "), found " ++ found t
  | .key t => utf8 "expected since or note, found " ++ found t
  | .unknownKey word =>
      utf8 "unknown deprecation key " ++ Quoted.encode word ++
        utf8 ", expected since or note"
  | .assign k t =>
      utf8 "expected '=' after " ++ k.name ++ utf8 ", found " ++ found t
  | .value k t =>
      utf8 "expected string literal for " ++ k.name ++
        utf8 ", found " ++ found t
  | .literal k =>
      utf8 "invalid string literal for " ++ k.name ++
        utf8 ": invalid syntax"

/- A suggestion for a word that is close to an expected one. -/
def suggest
    (word : Bytes)
    (candidates : List Bytes) : List Bytes :=
  match Spelling.closest? word candidates with
  | some s => [utf8 "did you mean " ++ s ++ utf8 "?"]
  | none => []

/- The suggestions that go with an error. -/
def suggestions : Cause → List Bytes
  | .separator name t =>
      if t.kind = .leftParen then suggest name [deprecatedWord] else []
  | .unknownKey word => suggest word [Key.since.name, Key.note.name]
  | _ => []

end Cause

/- An error and the text it is about. -/
structure Error where
  cause : Cause
  offset : Nat
  width : Nat
deriving DecidableEq, Repr

------------------------------------------------------------
-- The Automaton
------------------------------------------------------------

/- An entry as read, with the offset of its name. -/
structure Entry where
  name : Bytes
  offset : Nat
  deprecation : Option Deprecation
deriving DecidableEq, Repr

/-
  What has been read so far.  Finished entries are kept last
  one first.
-/
inductive State where
  | start
  | listing (entries : List Entry)
  | listed (entries : List Entry) (last : Entry)
  | deprecated (entries : List Entry)
  | deprecatedOpen (entries : List Entry)
  | details (entries : List Entry) (e : Entry) (d : Deprecation)
  | detail (entries : List Entry) (e : Entry) (d : Deprecation)
  | assigning (entries : List Entry) (e : Entry) (d : Deprecation) (k : Key)
  | assigned (entries : List Entry) (e : Entry) (d : Deprecation) (k : Key)
  | closed (entries : List Entry)
deriving DecidableEq, Repr

/- Read one token. -/
def step
    (s : State)
    (t : Token) : Except Cause State :=
  match s with
  | .start =>
      if t.kind = .leftParen then
        .ok (.listing [])
      else
        .error (.opening t)
  | .listing entries =>
      if t.kind = .rightParen then
        if entries.isEmpty then .error .noAlias else .ok (.closed entries)
      else if t.kind = .ident then
        if t.text = deprecatedWord then
          .ok (.deprecated entries)
        else
          .ok (.listed entries ⟨t.text, t.offset, none⟩)
      else
        .error (.aliasName t)
  | .listed entries last =>
      if t.kind = .comma then
        .ok (.listing (last :: entries))
      else if t.kind = .rightParen then
        .ok (.closed (last :: entries))
      else
        .error (.separator last.name t)
  | .deprecated entries =>
      if t.kind = .leftParen then
        .ok (.deprecatedOpen entries)
      else
        .error (.deprecatedOpening t)
  | .deprecatedOpen entries =>
      if t.kind = .ident then
        .ok (.details entries ⟨t.text, t.offset, none⟩ {})
      else
        .error (.deprecatedName t)
  | .details entries e d =>
      if t.kind = .rightParen then
        .ok (.listed entries { e with deprecation := some d })
      else if t.kind = .comma then
        .ok (.detail entries e d)
      else
        .error (.deprecatedSeparator e.name t)
  | .detail entries e d =>
      if t.kind = .rightParen then
        .ok (.listed entries { e with deprecation := some d })
      else if t.kind = .ident then
        match Key.ofName? t.text with
        | some k => .ok (.assigning entries e d k)
        | none => .error (.unknownKey t.text)
      else
        .error (.key t)
  | .assigning entries e d k =>
      if t.kind = .assign then
        .ok (.assigned entries e d k)
      else
        .error (.assign k t)
  | .assigned entries e d k =>
      if t.kind = .string then
        match Quoted.decode? t.text with
        | some value => .ok (.details entries e (k.set d value))
        | none => .error (.literal k)
      else
        .error (.value k t)
  | .closed _ => .error (.trailing t)

/- Read the tokens of a stream and then its ending. -/
def readFrom
    (ending : Ending) : State → List Token → Except Error (List Entry)
  | s, t :: ts =>
      match step s t with
      | .ok s' => readFrom ending s' ts
      | .error cause => .error ⟨cause, t.offset, t.width⟩
  | s, [] =>
      match ending with
      | .fault f => .error ⟨.scan f.cause, f.offset, 1⟩
      | .finished offset =>
          match s with
          | .closed entries => .ok entries.reverse
          | s =>
              match step s ⟨.eof, offset, []⟩ with
              | .error cause => .error ⟨cause, offset, 0⟩
              | .ok _ => .ok []

/- The entries that a text denotes, or the first error in it. -/
def read
    (src : Bytes) : Except Error (List Entry) :=
  let s := Stream.ofText src
  readFrom s.ending .start s.tokens

end Arguments

------------------------------------------------------------
-- Alias Lists
------------------------------------------------------------

/- The position of an offset in a text, counted from its beginning. -/
def Position.inText
    (src : Bytes)
    (offset : Nat) : Position :=
  let before := src.take offset
  let lastLine := before.reverse.takeWhile (· ≠ 0x0a)
  { offset := offset
    line := before.count 0x0a + 1
    column := lastLine.length + 1 }

namespace Alias

/- The diagnostic of an error in directive arguments. -/
def diagnose
    (locate : Nat → Position)
    (e : Arguments.Error) : Diagnostic :=
  { severity := .error
    code := Diagnostic.malformedArguments
    message := e.cause.message
    span := ⟨locate e.offset, locate (e.offset + e.width)⟩
    suggestions := e.cause.suggestions }

/- The alias of an entry. -/
def ofEntry
    (locate : Nat → Position)
    (e : Arguments.Entry) : Alias :=
  { name := e.name
    deprecation := e.deprecation
    span := ⟨locate e.offset, locate (e.offset + e.name.length)⟩ }

/- The aliases that directive arguments list. -/
def parse
    (src : Bytes)
    (locate : Nat → Position) : Except Diagnostic (List Alias) :=
  match Arguments.read src with
  | .ok entries => .ok (entries.map (ofEntry locate))
  | .error e => .error (diagnose locate e)

end Alias

end Namesake
