import Namesake.Yaml.Input
import Namesake.Yaml.Node
import Namesake.Yaml.Scanner

/-
  This file defines how tokens make up the first document of
  a YAML text.  What follows that document is not read.

  Key definitions include:
    * `Yaml.Parser`
    * `Yaml.Parser.node`
    * `Yaml.Parser.document`
    * `Yaml.parse`
-/

namespace Namesake

namespace Yaml

------------------------------------------------------------
-- States
------------------------------------------------------------

/-
  The state of a parser: the scanner, what the handles of tags
  stand for, the names of anchors with the numbers of their
  nodes, and the nodes that are complete.
-/
structure Parser.State where
  scanner : Scanner
  handles : List (Bytes × Bytes) := []
  anchors : List (Bytes × Nat) := []
  anchored : List (Nat × Node) := []
  count : Nat := 0

/- A parser of nodes. -/
abbrev Parser :=
  StateT Parser.State (Except Error)

namespace Parser

/- Look at the next token. -/
def peek : Parser Token := do
  let s ← get
  let (token, scanner) ← s.scanner.peek
  set { s with scanner }
  return token

/- Step to the next token. -/
def skip : Parser Unit :=
  modify fun s => { s with scanner := s.scanner.take }

/- Step to the next token and look at it. -/
def next : Parser Token := do
  skip
  peek

/-
  Fail with a problem inside a part.  The line that is shown
  is the one before the part, or before the problem.
-/
def fail
    {α : Type}
    (start : Mark)
    (problem : Problem)
    (mark : Mark) : Parser α :=
  throw ⟨problem, if start.line ≠ 0 then start.line else mark.line⟩

/- The line of a mark as it is shown. -/
def lineOf
    (m : Mark) : Nat :=
  m.line + 1

/- A scalar that is not written. -/
def emptyAt
    (m : Mark) : Node :=
  .scalar Tag.null [] (lineOf m)

------------------------------------------------------------
-- Properties
------------------------------------------------------------

/- The anchor and the tag in front of a node. -/
structure Properties where
  anchor : Bytes := []
  handle : Bytes := []
  suffix : Bytes := []
  tagged : Option Mark := none

/- Read a tag. -/
def tagProperty
    (p : Properties)
    (token : Token) : Parser (Properties × Token) := do
  match token.shape with
  | .tag handle suffix =>
      let token' ← next
      return ({ p with handle, suffix, tagged := some token.start }, token')
  | _ => return (p, token)

/- Read an anchor. -/
def anchorProperty
    (p : Properties)
    (token : Token) : Parser (Properties × Token) := do
  match token.shape with
  | .anchor name => return ({ p with anchor := name }, ← next)
  | _ => return (p, token)

/- Read an anchor and a tag in any order. -/
def properties
    (token : Token) : Parser (Properties × Token) := do
  match token.shape with
  | .anchor _ =>
      let (p, token) ← anchorProperty {} token
      tagProperty p token
  | .tag _ _ =>
      let (p, token) ← tagProperty {} token
      anchorProperty p token
  | _ => return ({}, token)

/- The full tag of a node; empty if it has none. -/
def fullTag
    (start : Mark)
    (p : Properties) : Parser Bytes := do
  match p.tagged with
  | none => return []
  | some mark =>
      if p.handle.isEmpty then
        return p.suffix
      else
        match (← get).handles.find? (fun h => h.1 == p.handle) with
        | some (_, long) =>
            if (long ++ p.suffix).isEmpty then
              fail start .undefinedHandle mark
            else
              return long ++ p.suffix
        | none => fail start .undefinedHandle mark

/- The tag of a node, given the one that it has by default. -/
def tagOr
    (tag default : Bytes) : Bytes :=
  if tag.isEmpty || tag == utf8 "!" then default else Tag.short tag

/- The tag of a scalar. -/
def scalarTag
    (tag value : Bytes)
    (style : Style) : Bytes :=
  tagOr tag (if style == .plain then implicitTag true value else Tag.str)

------------------------------------------------------------
-- Anchors
------------------------------------------------------------

/- Give a node that starts here a number, if it has an anchor. -/
def declare
    (name : Bytes) : Parser (Option Nat) := do
  if name.isEmpty then
    return none
  else
    let s ← get
    set
      { s with
        anchors := (name, s.count) :: s.anchors
        count := s.count + 1 }
    return some s.count

/- Keep a complete node under its number. -/
def finish
    (number : Option Nat)
    (n : Node) : Parser Node := do
  match number with
  | none => return n
  | some k =>
      modify fun s => { s with anchored := (k, n) :: s.anchored }
      return n

/- The node that a name stands for. -/
def reference
    (token : Token)
    (name : Bytes) : Parser Node := do
  skip
  match (← get).anchors.find? (fun a => a.1 == name) with
  | some (_, k) =>
      return .reference name k token.start.index (lineOf token.start)
  | none => throw ⟨.unknownAnchor name, 0⟩

------------------------------------------------------------
-- Nodes
------------------------------------------------------------

/- Does the token end an entry of a block? -/
def endsEntry : Shape → Bool
  | .key | .value | .blockEnd => true
  | _ => false

/- A node of which at most the properties are written. -/
def absent
    (start : Mark)
    (p : Properties)
    (tag : Bytes)
    (token : Token) : Parser Node := do
  if p.anchor.isEmpty && tag.isEmpty then
    fail start .noContent token.start
  else
    let k ← declare p.anchor
    finish k (.scalar (scalarTag tag [] .plain) [] (lineOf start))

mutual

/-
  Parse a node.  In a block it may be a block itself; as the
  value of a key it may be a sequence without an indent.
-/
def node
    (block indentless : Bool) : (fuel : Nat) → Parser Node
  | 0 => do
      let token ← peek
      fail token.start .noContent token.start
  | fuel + 1 => do
      let first ← peek
      match first.shape with
      | .reference name => reference first name
      | _ =>
          let start := first.start
          let (p, token) ← properties first
          let tag ← fullTag start p
          let line := lineOf start
          match token.shape with
          | .blockEntry =>
              if indentless then
                let k ← declare p.anchor
                let items ← dashItems fuel
                finish k (.sequence (tagOr tag Tag.seq) items line)
              else
                absent start p tag token
          | .scalar value style =>
              let k ← declare p.anchor
              skip
              finish k (.scalar (scalarTag tag value style) value line)
          | .flowSequenceStart =>
              let k ← declare p.anchor
              let items ← flowItems token.start true fuel
              finish k (.sequence (tagOr tag Tag.seq) items line)
          | .flowMappingStart =>
              let k ← declare p.anchor
              let pairs ← flowPairs token.start true fuel
              finish k (.mapping (tagOr tag Tag.map) pairs line)
          | .blockSequenceStart =>
              if block then
                let k ← declare p.anchor
                skip
                let items ← blockItems token.start fuel
                finish k (.sequence (tagOr tag Tag.seq) items line)
              else
                absent start p tag token
          | .blockMappingStart =>
              if block then
                let k ← declare p.anchor
                skip
                let pairs ← blockPairs token.start fuel
                finish k (.mapping (tagOr tag Tag.map) pairs line)
              else
                absent start p tag token
          | _ => absent start p tag token

/- Parse the items of a sequence in a block of its own. -/
def blockItems
    (start : Mark) : (fuel : Nat) → Parser (List Node)
  | 0 => do
      let token ← peek
      fail start .noDash token.start
  | fuel + 1 => do
      let token ← peek
      match token.shape with
      | .blockEntry =>
          let mark := token.stop
          let token ← next
          let item ←
            match token.shape with
            | .blockEntry | .blockEnd => pure (emptyAt mark)
            | _ => node true false fuel
          let items ← blockItems start fuel
          return item :: items
      | .blockEnd =>
          skip
          return []
      | _ => fail start .noDash token.start

/- Parse the items of a sequence that has no block of its own. -/
def dashItems : (fuel : Nat) → Parser (List Node)
  | 0 => return []
  | fuel + 1 => do
      let token ← peek
      match token.shape with
      | .blockEntry =>
          let mark := token.stop
          let token ← next
          let item ←
            if token.shape == .blockEntry || endsEntry token.shape then
              pure (emptyAt mark)
            else
              node true false fuel
          let items ← dashItems fuel
          return item :: items
      | _ => return []

/- Parse the value of a key in a block. -/
def blockValue : (fuel : Nat) → Parser Node
  | 0 => do
      let token ← peek
      fail token.start .noContent token.start
  | fuel + 1 => do
      let token ← peek
      if token.shape == .value then
        let mark := token.stop
        let token ← next
        if endsEntry token.shape then
          return emptyAt mark
        else
          node true true fuel
      else
        return emptyAt token.start

/- Parse the entries of a mapping in a block. -/
def blockPairs
    (start : Mark) : (fuel : Nat) → Parser (List (Node × Node))
  | 0 => do
      let token ← peek
      fail start .noKey token.start
  | fuel + 1 => do
      let token ← peek
      match token.shape with
      | .key =>
          let mark := token.stop
          let token ← next
          let key ←
            if endsEntry token.shape then
              pure (emptyAt mark)
            else
              node true true fuel
          let value ← blockValue fuel
          let pairs ← blockPairs start fuel
          return (key, value) :: pairs
      | .blockEnd =>
          skip
          return []
      | _ => fail start .noKey token.start

/- Parse a mapping of one entry between square brackets. -/
def flowPair
    (mark : Mark) : (fuel : Nat) → Parser Node
  | 0 => return emptyAt mark
  | fuel + 1 => do
      let token ← next
      let key ←
        match token.shape with
        | .value | .flowEntry | .flowSequenceEnd => do
            skip
            pure (emptyAt token.stop)
        | _ => node false false fuel
      let token ← peek
      let value ←
        if token.shape == .value then do
          let token ← next
          match token.shape with
          | .flowEntry | .flowSequenceEnd => pure (emptyAt token.start)
          | _ => node false false fuel
        else
          pure (emptyAt token.start)
      let _ ← peek
      return .mapping Tag.map [(key, value)] (lineOf mark)

/- Parse the items between square brackets. -/
def flowItems
    (start : Mark)
    (first : Bool) : (fuel : Nat) → Parser (List Node)
  | 0 => do
      let token ← peek
      fail start .noSequenceEnd token.start
  | fuel + 1 => do
      let token ← if first then next else peek
      if token.shape == .flowSequenceEnd then
        skip
        return []
      else
        let token ←
          if first then
            pure token
          else if token.shape == .flowEntry then
            next
          else
            fail start .noSequenceEnd token.start
        match token.shape with
        | .flowSequenceEnd =>
            skip
            return []
        | .key =>
            let item ← flowPair token.start fuel
            let items ← flowItems start false fuel
            return item :: items
        | _ =>
            let item ← node false false fuel
            let items ← flowItems start false fuel
            return item :: items

/- Parse the value of a key between braces. -/
def flowValue : (fuel : Nat) → Parser Node
  | 0 => do
      let token ← peek
      fail token.start .noContent token.start
  | fuel + 1 => do
      let token ← peek
      if token.shape == .value then
        let token ← next
        match token.shape with
        | .flowEntry | .flowMappingEnd => return emptyAt token.start
        | _ => node false false fuel
      else
        return emptyAt token.start

/- Parse the entries between braces. -/
def flowPairs
    (start : Mark)
    (first : Bool) : (fuel : Nat) → Parser (List (Node × Node))
  | 0 => do
      let token ← peek
      fail start .noMappingEnd token.start
  | fuel + 1 => do
      let token ← if first then next else peek
      if token.shape == .flowMappingEnd then
        skip
        return []
      else
        let token ←
          if first then
            pure token
          else if token.shape == .flowEntry then
            next
          else
            fail start .noMappingEnd token.start
        match token.shape with
        | .flowMappingEnd =>
            skip
            return []
        | .key =>
            let token ← next
            let key ←
              match token.shape with
              | .value | .flowEntry | .flowMappingEnd =>
                  pure (emptyAt token.start)
              | _ => node false false fuel
            let value ← flowValue fuel
            let pairs ← flowPairs start false fuel
            return (key, value) :: pairs
        | _ =>
            let key ← node false false fuel
            let token ← peek
            let pairs ← flowPairs start false fuel
            return (key, emptyAt token.start) :: pairs

end

------------------------------------------------------------
-- Documents
------------------------------------------------------------

/- What the handles of tags stand for by default. -/
def defaultHandles : List (Bytes × Bytes) :=
  [(utf8 "!", utf8 "!"), (utf8 "!!", Tag.longStart)]

/- Read the directives above a document. -/
def directives
    (versioned : Bool) : (fuel : Nat) → Parser Unit
  | 0 => return ()
  | fuel + 1 => do
      let token ← peek
      match token.shape with
      | .versionDirective major minor =>
          if versioned then
            fail {} .repeatedVersion token.start
          else if major ≠ 1 || minor ≠ 1 then
            fail {} .wrongVersion token.start
          else
            skip
            directives true fuel
      | .tagDirective handle long =>
          let s ← get
          if s.handles.any fun h => h.1 == handle then
            fail {} .repeatedTag token.start
          else
            set { s with handles := s.handles ++ [(handle, long)] }
            skip
            directives versioned fuel
      | _ => return ()

/- Does the token end a document or start the next one? -/
def endsDocument : Shape → Bool
  | .versionDirective _ _ | .tagDirective _ _ | .documentStart
  | .documentEnd | .streamEnd => true
  | _ => false

/- Does the document start with a line of its own? -/
def isExplicit : Shape → Bool
  | .versionDirective _ _ | .tagDirective _ _ | .documentStart => true
  | _ => false

/- Take the default handles that no directive has changed. -/
def addHandles : Parser Unit :=
  modify fun s =>
    let missing :=
      defaultHandles.filter fun d => !s.handles.any fun h => h.1 == d.1
    { s with handles := s.handles ++ missing }

/- Parse the first document, if there is one. -/
def document
    (fuel : Nat) : Parser (Option Node) := do
  let _ ← peek
  let token ← next
  if token.shape == .streamEnd then
    return none
  else if isExplicit token.shape then
    directives false fuel
    addHandles
    let token ← peek
    if token.shape ≠ .documentStart then
      fail {} .noDocumentStart token.start
    else
      let token ← next
      let root ←
        if endsDocument token.shape then
          pure (emptyAt token.start)
        else
          node true false fuel
      let _ ← peek
      return some root
  else
    addHandles
    let root ← node true false fuel
    let _ ← peek
    return some root

end Parser

/- Read the first document of a text. -/
def parse
    (text : Bytes) : Except Error (Option Document) :=
  match characters text with
  | .error problem => .error ⟨problem, 0⟩
  | .ok cs =>
      let s : Parser.State := { scanner := { cursor := { rest := cs } } }
      match (Parser.document (16 * (cs.length + 4))).run s with
      | .error e => .error e
      | .ok (none, _) => .ok none
      | .ok (some root, s) => .ok (some ⟨root, s.anchored, cs.length⟩)

end Yaml

end Namesake
