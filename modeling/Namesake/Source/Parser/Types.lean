import Namesake.Source.Parser.State

/-
  This file defines the parsers of types, fields and
  parameters.

  Key definitions include:
    * `Source.Parser.typeName`
    * `Source.Parser.params`
    * `Source.Parser.structType`
    * `Source.Parser.interfaceType`
    * `Source.Parser.signature`
    * `Source.Parser.tryType`
-/

namespace Namesake

namespace Source

namespace Parser

variable {i : Input}

------------------------------------------------------------
-- Named Types
------------------------------------------------------------

/- A type name, possibly of another package. -/
def typeName
    (given : Option Ident) : Parser i Expr := do
  let id ← match given with
    | some id => pure id
    | none => ident
  if ← at? .period then
    advance
    return .selector (.ident id) (← ident)
  else
    return .ident id

/- A closed list of types between brackets. -/
def typeArguments
    (g : Grammar i) : (fuel : Nat) → Parser i (List Expr)
  | 0 => return []
  | fuel + 1 => do
      let k ← kind
      if k == .rightBracket || k == .eof then
        return []
      else
        let t ← g.type
        if ← atComma "type argument list" .rightBracket then
          advance
          return t :: (← typeArguments g fuel)
        else
          return [t]

/- The type arguments of a type. -/
def typeInstance
    (g : Grammar i)
    (x : Expr) : Parser i Expr := do
  let opening ← expect .leftBracket
  let fuel ← budget
  let args ← nested (typeArguments g fuel)
  let closing ← expectClosing .rightBracket "type argument list"
  if args.isEmpty then
    complainExpected closing (utf8 "type argument list")
    return .index x opening [.bad (opening + 1) closing] closing
  else
    return .index x opening args closing

/- A type name with type arguments. -/
def qualified
    (g : Grammar i)
    (given : Option Ident) : Parser i Expr := do
  let t ← typeName given
  if ← at? .leftBracket then
    typeInstance g t
  else
    return t

------------------------------------------------------------
-- Arrays
------------------------------------------------------------

/- An array type behind its opening bracket. -/
def arrayType
    (g : Grammar i)
    (lbrack : Nat)
    (given : Option Expr) : Parser i Expr := do
  let len ← match given with
    | some x => pure (some x)
    | none => nested do
        let k ← kind
        if k == .ellipsis then
          let p ← offset
          advance
          return some (.ellipsis p none)
        else if k == .rightBracket then
          return none
        else
          return some (← g.rhs)
  if ← at? .comma then
    complain (← offset) (utf8 "unexpected comma; expecting ]")
    advance
  let _ ← expect .rightBracket
  return .array lbrack len (← g.type)

/- Expressions between brackets and the offset of a trailing comma. -/
def bracketed
    (g : Grammar i) : (fuel : Nat) → Parser i (List Expr × Option Nat)
  | 0 => return ([], none)
  | fuel + 1 => do
      if ← at? .comma then
        let comma ← offset
        advance
        if ← at? .rightBracket then
          return ([], some comma)
        else
          let x ← g.rhs
          let r ← bracketed g fuel
          return (x :: r.1, r.2)
      else
        return ([], none)

/-
  What follows a name and a bracket: the array type of a field
  of that name, or the type arguments of that type.
-/
def arrayOrInstance
    (g : Grammar i)
    (x : Ident) : Parser i (Option Ident × Expr) := do
  let lbrack ← expect .leftBracket
  let (args, trailing) ←
    if ← at? .rightBracket then
      pure ([], none)
    else
      nested do
        let first ← g.rhs
        let r ← bracketed g (← budget)
        return (first :: r.1, r.2)
  let rbrack ← expect .rightBracket
  match args with
  | [] => return (some x, .array lbrack none (← g.type))
  | [len] =>
      match ← g.type? with
      | some elt =>
          if let some p := trailing then
            complain p (utf8 "unexpected comma; expecting ]")
          return (some x, .array lbrack (some len) elt)
      | none => return (none, .index (.ident x) lbrack args rbrack)
  | args => return (none, .index (.ident x) lbrack args rbrack)

------------------------------------------------------------
-- Type Sets
------------------------------------------------------------

/- One term of a type set. -/
def term
    (g : Grammar i) : Parser i Expr := do
  if ← at? .tilde then
    let p ← offset
    advance
    return .unary p .tilde (← g.type)
  else
    match ← g.type? with
    | some t => return t
    | none =>
        let p ← offset
        complainExpected p (utf8 "~ term or type")
        skipTo exprEnd
        return .bad p (← offset)

/- Further terms of a type set. -/
def moreTerms
    (g : Grammar i)
    (x : Expr) : (fuel : Nat) → Parser i Expr
  | 0 => return x
  | fuel + 1 => do
      if ← at? .or then
        let p ← offset
        advance
        let y ← term g
        moreTerms g (.binary x p .or y) fuel
      else
        return x

/- A type set, of which the first term may be known. -/
def typeSet
    (g : Grammar i)
    (given : Option Expr) : Parser i Expr := do
  let x ← match given with
    | some x => pure x
    | none => term g
  moreTerms g x (← budget)

------------------------------------------------------------
-- Parameters
------------------------------------------------------------

/- A parameter as written: a name, a type or both. -/
structure Param where
  name : Option Ident := none
  type : Option Expr := none

/- A type behind three dots. -/
def variadic
    (g : Grammar i) : Parser i Expr := do
  let p ← expect .ellipsis
  return .ellipsis p (some (← g.type))

/- Add the other terms of a type set to a parameter. -/
def withTypeSet
    (g : Grammar i)
    (typeSets : Bool)
    (p : Param) : Parser i Param := do
  match p.type with
  | some t =>
      if typeSets && (← at? .or) then
        return { p with type := some (← typeSet g (some t)) }
      else
        return p
  | none => return p

/- A parameter that starts with a name. -/
def namedParam
    (g : Grammar i)
    (typeSets : Bool)
    (id : Ident) : Parser i Param := do
  match ← kind with
  | .ident | .mul | .arrow | .kwFunc | .kwChan | .kwInterface | .kwMap
  | .kwStruct | .leftParen =>
      withTypeSet g typeSets { name := some id, type := some (← g.type) }
  | .leftBracket =>
      let r ← arrayOrInstance g id
      withTypeSet g typeSets { name := r.1, type := some r.2 }
  | .ellipsis => return { name := some id, type := some (← variadic g) }
  | .period =>
      withTypeSet g typeSets { type := some (← qualified g (some id)) }
  | .tilde =>
      if typeSets then
        return { name := some id, type := some (← typeSet g none) }
      else
        return { name := some id }
  | .or =>
      if typeSets then
        return { type := some (← typeSet g (some (.ident id))) }
      else
        return { name := some id }
  | _ => return { name := some id }

/- A parameter, of which the name may be known. -/
def param
    (g : Grammar i)
    (given : Option Ident)
    (typeSets : Bool) : Parser i Param := do
  match given with
  | some id => namedParam g typeSets id
  | none =>
      match ← kind with
      | .ident => namedParam g typeSets (← ident)
      | .mul | .arrow | .kwFunc | .leftBracket | .kwChan | .kwMap
      | .kwStruct | .kwInterface | .leftParen =>
          withTypeSet g typeSets { type := some (← g.type) }
      | .ellipsis => return { type := some (← variadic g) }
      | k =>
          if typeSets && k == .tilde then
            return { type := some (← typeSet g none) }
          else
            complainExpected (← offset) (utf8 "')'")
            skipTo exprEnd
            return {}

/- The parameters up to a closing token. -/
def paramList
    (g : Grammar i)
    (closing : TokenKind) :
    (fuel : Nat) → Option Param → Parser i (List Param)
  | 0, _ => return []
  | fuel + 1, given => do
      let k ← kind
      if given.isNone && (k == closing || k == .eof) then
        return []
      else
        let typeSets := closing == .rightBracket
        let p ← match given with
          | some ⟨name, some t⟩ =>
              if typeSets then
                pure ⟨name, some (← typeSet g (some t))⟩
              else
                pure ⟨name, some t⟩
          | some ⟨name, none⟩ => param g name typeSets
          | none => param g none typeSets
        let more ← atComma "parameter list" closing
        let rest ←
          if more then do
            advance
            paramList g closing fuel none
          else
            pure []
        if p.name.isSome || p.type.isSome then
          return p :: rest
        else
          return rest

/- Fields of types only. -/
def unnamedFields
    (ps : List Param) : List Field :=
  ps.map fun p =>
    match p.type, p.name with
    | some t, _ => { type := some t }
    | none, some id => { type := some (.ident id) }
    | none, none => {}

/- Fields of names with types; names before a type share it. -/
def namedFields
    (names : List Ident) : List Param → List Field
  | [] =>
      if names.isEmpty then
        []
      else
        [{ names := names.reverse, type := some (.bad 0 0) }]
  | ⟨name, some t⟩ :: ps =>
      let id := name.getD ⟨t.pos, utf8 "_"⟩
      { names := (id :: names).reverse, type := some t } ::
        namedFields [] ps
  | ⟨some id, none⟩ :: ps => namedFields (id :: names) ps
  | ⟨none, none⟩ :: ps => namedFields names ps

/-
  The leftmost parameter that lacks a name, or a type to its
  right.
-/
def incomplete?
    (ps : List Param) : Option Nat :=
  let bad := ps.reverse.foldl
    (fun (acc : Bool × Option Nat) p =>
      match p.type, p.name with
      | some t, none => (true, some t.pos)
      | some _, some _ => (true, acc.2)
      | none, some id => if acc.1 then acc else (false, some id.pos)
      | none, none => acc)
    (false, none)
  bad.2

/- Complain about parameters of which some lack a name or a type. -/
def checkParams
    (start : Nat)
    (typeParams : Bool)
    (ps : List Param) : Parser i Unit := do
  let named := (ps.filter fun p => p.name.isSome && p.type.isSome).length
  let typed := (ps.filter fun p => p.type.isSome).length
  let lacking : Option Nat :=
    if named = 0 then
      if typeParams then some start else none
    else if named ≠ ps.length then
      incomplete? ps
    else
      none
  match lacking with
  | none => return ()
  | some p =>
      let here ← offset
      if typeParams then
        if named = typed then
          complain here (utf8 "missing type constraint")
        else
          complain p
            (utf8 "missing type parameter name" ++
              if ps.length = 1 then utf8 " or invalid array length" else [])
      else if named = typed then
        complain here (utf8 "missing parameter type")
      else
        complain p (utf8 "missing parameter name")

/- Complain about three dots before any but the last parameter. -/
def checkVariadic
    (allowed : Bool)
    (ps : List Param) : Parser i (List Param) := do
  let count := ps.length
  (ps.zipIdx).mapM fun (p, i) => do
    match p.type with
    | some (.ellipsis at₀ (some elt)) =>
        if allowed && i + 1 = count then
          return p
        else
          if allowed then
            complain at₀
              (utf8 "can only use ... with final parameter in list")
          else
            complain at₀ (utf8 "invalid use of ...")
          return { p with type := some elt }
    | _ => return p

/- The fields of a parameter list up to its closing token. -/
def paramFields
    (g : Grammar i)
    (given : Option Param)
    (closing : TokenKind)
    (variadic : Bool) : Parser i (List Field) := do
  let here ← offset
  let start :=
    match given with
    | some ⟨some id, _⟩ => id.pos
    | some ⟨none, some t⟩ => t.pos
    | _ => here
  let ps ← paramList g closing (← budget) given
  if ps.isEmpty then
    return []
  let ps ← checkVariadic variadic ps
  checkParams start (closing == .rightBracket) ps
  let named := ps.any fun p => p.name.isSome && p.type.isSome
  return if named then namedFields [] ps else unnamedFields ps

/- Parameters between parentheses. -/
def params
    (g : Grammar i)
    (variadic : Bool) : Parser i Fields := do
  let opening ← expect .leftParen
  let list ←
    if ← at? .rightParen then
      pure []
    else
      paramFields g none .rightParen variadic
  let closing ← expect .rightParen
  return { opening := some opening, list := list, closing := some closing }

/- Type parameters between brackets. -/
def typeParams
    (g : Grammar i) : Parser i (Option Fields) := do
  let opening ← expect .leftBracket
  let list ←
    if ← at? .rightBracket then
      pure []
    else
      paramFields g none .rightBracket false
  let closing ← expect .rightBracket
  if list.isEmpty then
    complain closing (utf8 "empty type parameter list")
    return none
  else
    return some
      { opening := some opening, list := list, closing := some closing }

/- The results of a function. -/
def results
    (g : Grammar i) : Parser i (Option Fields) := do
  if ← at? .leftParen then
    return some (← params g false)
  else
    match ← g.type? with
    | some t => return some { list := [{ type := some t }] }
    | none => return none

/- A function type. -/
def signature
    (g : Grammar i) : Parser i Signature := do
  let p ← expect .kwFunc
  if ← at? .leftBracket then
    let tps ← typeParams g
    if let some tps := tps then
      complain (tps.opening.getD p)
        (utf8 "function type must have no type parameters")
  let ps ← params g true
  let rs ← results g
  return { keyword := some p, params := ps, results := rs }

------------------------------------------------------------
-- Structs
------------------------------------------------------------

/- Further names of a field. -/
def moreNames : Parser i (List Ident) :=
  many (at? .comma) do
    advance
    ident

/- A closing parenthesis that may be missing. -/
def optionalParen : Parser i Unit := do
  if ← at? .rightParen then
    advance

/- The names and the type of a field of a struct. -/
def fieldCore
    (g : Grammar i) : Parser i (List Ident × Expr) := do
  match ← kind with
  | .ident =>
      let name ← ident
      match ← kind with
      | .period => return ([], ← qualified g (some name))
      | .string | .semicolon | .rightBrace => return ([], .ident name)
      | k =>
          let more ← moreNames
          if more.isEmpty && k == .leftBracket then
            let r ← arrayOrInstance g name
            return (r.1.toList, r.2)
          else
            return (name :: more, ← g.type)
  | .mul =>
      let star ← offset
      advance
      if ← at? .leftParen then
        complain (← offset) (utf8 "cannot parenthesize embedded type")
        advance
        let t ← qualified g none
        optionalParen
        return ([], .star star t)
      else
        return ([], .star star (← qualified g none))
  | .leftParen =>
      complain (← offset) (utf8 "cannot parenthesize embedded type")
      advance
      let t ←
        if ← at? .mul then do
          let star ← offset
          advance
          pure (.star star (← qualified g none))
        else
          qualified g none
      optionalParen
      return ([], t)
  | _ =>
      let p ← offset
      complainExpected p (utf8 "field name or embedded type")
      skipTo exprEnd
      return ([], .bad p (← offset))

/- The current token as a literal. -/
def literal : Parser i Lit := do
  let s ← get
  let l : Lit := ⟨s.token.offset, s.token.kind, s.token.text, s.tokenStop⟩
  advance
  return l

/- A field of a struct. -/
def structField
    (g : Grammar i) : Parser i Field := do
  let doc ← leadDoc
  let (names, t) ← fieldCore g
  let tag ←
    if ← at? .string then
      pure (some (← literal))
    else
      pure none
  let comment ← expectSemi
  return { doc, names, type := some t, tag, comment }

/- A struct type. -/
def structType
    (g : Grammar i) : Parser i Expr := do
  let p ← expect .kwStruct
  let opening ← expect .leftBrace
  let starts : Parser i Bool := do
    let k ← kind
    return k == .ident || k == .mul || k == .leftParen
  let list ← many starts (structField g)
  let closing ← expect .rightBrace
  return .struct p
    { opening := some opening, list := list, closing := some closing }

------------------------------------------------------------
-- Interfaces
------------------------------------------------------------

/- The signature of a method of an interface. -/
def methodSignature
    (g : Grammar i) : Parser i Expr := do
  let ps ← params g true
  let rs ← results g
  return .func { params := ps, results := rs }

/- A method, or the first type of an embedded type set. -/
def methodCore
    (g : Grammar i) : Parser i (List Ident × Expr) := do
  let x ← typeName none
  match x, ← kind with
  | .ident id, .leftBracket =>
      let lbrack ← offset
      advance
      let arg ← nested g.expr
      let k ← kind
      match arg, k == .comma || k == .rightBracket with
      | .ident name, false =>
          let _ ← paramFields g (some { name := some name }) .rightBracket
            false
          let _ ← expect .rightBracket
          complain lbrack
            (utf8 "interface method must have no type parameters")
          return ([id], ← methodSignature g)
      | _, _ =>
          let more ←
            if ← atComma "type argument list" .rightBracket then
              nested do
                advance
                typeArguments g (← budget)
            else
              pure []
          let rbrack ← expectClosing .rightBracket "type argument list"
          return ([], .index x lbrack (arg :: more) rbrack)
  | .ident id, .leftParen => return ([id], ← methodSignature g)
  | .ident _, _ => return ([], x)
  | _, .leftBracket => return ([], ← typeInstance g x)
  | _, _ => return ([], x)

/- An element of an interface, if there is one. -/
def element
    (g : Grammar i) : Parser i (Option Field) := do
  match ← kind with
  | .ident =>
      let doc ← leadDoc
      let (names, t) ← methodCore g
      let t ← if names.isEmpty then typeSet g (some t) else pure t
      let comment ← expectSemi
      return some { doc, names, type := some t, comment }
  | .tilde =>
      let t ← typeSet g none
      let comment ← expectSemi
      return some { type := some t, comment }
  | _ =>
      match ← g.type? with
      | some t =>
          let t ← typeSet g (some t)
          let comment ← expectSemi
          return some { type := some t, comment }
      | none => return none

/- The elements of an interface. -/
def elements
    (g : Grammar i) : (fuel : Nat) → Parser i (List Field)
  | 0 => return []
  | fuel + 1 => do
      match ← element g with
      | some f => return f :: (← elements g fuel)
      | none => return []

/- An interface type. -/
def interfaceType
    (g : Grammar i) : Parser i Expr := do
  let p ← expect .kwInterface
  let opening ← expect .leftBrace
  let list ← elements g (← budget)
  let closing ← expect .rightBrace
  return .interface p
    { opening := some opening, list := list, closing := some closing }

------------------------------------------------------------
-- Types
------------------------------------------------------------

/- A map type. -/
def mapType
    (g : Grammar i) : Parser i Expr := do
  let p ← expect .kwMap
  let _ ← expect .leftBracket
  let key ← g.type
  let _ ← expect .rightBracket
  return .map p key (← g.type)

/- A channel type. -/
def chanType
    (g : Grammar i) : Parser i Expr := do
  let p ← offset
  if ← at? .kwChan then
    advance
    if ← at? .arrow then
      let arrow ← offset
      advance
      return .chan p (some arrow) .send (← g.type)
    else
      return .chan p none .both (← g.type)
  else
    let arrow ← expect .arrow
    let _ ← expect .kwChan
    return .chan p (some arrow) .receive (← g.type)

/- A type, if there is one. -/
def tryType
    (g : Grammar i) : Parser i (Option Expr) := do
  match ← kind with
  | .ident => return some (← qualified g none)
  | .leftBracket =>
      let lbrack ← expect .leftBracket
      return some (← arrayType g lbrack none)
  | .kwStruct => return some (← structType g)
  | .mul =>
      let star ← expect .mul
      return some (.star star (← g.type))
  | .kwFunc => return some (.func (← signature g))
  | .kwInterface => return some (← interfaceType g)
  | .kwMap => return some (← mapType g)
  | .kwChan | .arrow => return some (← chanType g)
  | .leftParen =>
      let lparen ← offset
      advance
      let t ← g.type
      let rparen ← expect .rightParen
      return some (.paren lparen t rparen)
  | _ => return none

end Parser

end Source

end Namesake
