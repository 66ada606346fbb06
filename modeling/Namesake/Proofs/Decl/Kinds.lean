import Namesake.Proofs.Decl.Renaming

/-
  Which declarations have a kind, and how their identifying
  name is reached.

  The name is looked up by the kind alone: the lookup expects
  the form that belongs to the kind and has no answer to any
  other.  For a declaration of that kind it always arrives at
  the name that the declaration is known by.

  Main declarations:
    * `TypeExpr.Leads`
    * `Decl.HasKind`
    * `Decl.classify_eq_ok_iff`
    * `Decl.IsRejection`
    * `Decl.isRejection_of_classify`
    * `Decl.access`
    * `Decl.HasKind.accessible`
-/

namespace Namesake

------------------------------------------------------------
-- Leading Names
------------------------------------------------------------

/-
  A name is reached through pointers, parentheses, the left
  side of type arguments and of selectors.
-/
inductive TypeExpr.Leads
    (name : Bytes) : TypeExpr → Prop where
  | ident : Leads name (.ident name)
  | star
      {x : TypeExpr}
      (h : Leads name x) :
      Leads name (.star x)
  | paren
      {x : TypeExpr}
      (h : Leads name x) :
      Leads name (.paren x)
  | index
      {x : TypeExpr}
      (arg : TypeExpr)
      (h : Leads name x) :
      Leads name (.index x arg)
  | indexList
      {x : TypeExpr}
      (args : List TypeExpr)
      (h : Leads name x) :
      Leads name (.indexList x args)
  | selector
      {x : TypeExpr}
      (sel : Bytes)
      (h : Leads name x) :
      Leads name (.selector x sel)

namespace TypeExpr

/- The search for the leading name finds it wherever it is. -/
theorem leading?_eq_some_iff
    {name : Bytes}
    {x : TypeExpr} :
    x.leading? = some name ↔ x.Leads name := by
  constructor
  · intro h
    fun_induction leading? x with
    | case1 _ =>
        cases h
        exact .ident
    | case2 x ih => exact .star (ih h)
    | case3 x ih => exact .paren (ih h)
    | case4 x arg ih => exact .index arg (ih h)
    | case5 x args ih => exact .indexList args (ih h)
    | case6 x sel ih => exact .selector sel (ih h)
    | case7 => cases h
  · intro h
    induction h with
    | ident => rfl
    | star _ ih => exact ih
    | paren _ ih => exact ih
    | index _ _ ih => exact ih
    | indexList _ _ ih => exact ih
    | selector _ _ ih => exact ih

end TypeExpr

------------------------------------------------------------
-- Kinds
------------------------------------------------------------

namespace Decl

/-
  The declarations of each kind.  Types and constants stand
  alone in their declaration, and a type is no alias.
-/
inductive HasKind : Body → Kind → Prop where
  | function
      (name : Bytes) :
      HasKind (.func name none) .function
  | method
      {leading : Bytes}
      {x : TypeExpr}
      (name : Bytes)
      (rest : List TypeExpr)
      (h : x.Leads leading) :
      HasKind (.func name (some (x :: rest))) .method
  | structType
      (name : Bytes) :
      HasKind
        (.general .typeKeyword
          [.typeSpec name false (.other .struct)])
        .structType
  | interfaceType
      (name : Bytes) :
      HasKind
        (.general .typeKeyword
          [.typeSpec name false (.other .interface)])
        .interfaceType
  | constant
      (name : Bytes) :
      HasKind (.general .constKeyword [.valueSpec [name]])
        .constant

/- A type with a kind is a structure or an interface by itself. -/
theorem hasKind_of_typeKind
    {specs : List Spec}
    {kind : Kind}
    (h : typeKind specs = .ok kind) :
    HasKind (.general .typeKeyword specs) kind := by
  unfold typeKind at h
  split at h
  · rename_i name assign expr
    split at h
    · cases h
    · rename_i hAssign
      rw [Bool.not_eq_true] at hAssign
      subst hAssign
      split at h
      · rename_i hStruct
        cases h
        unfold TypeExpr.isStruct at hStruct
        split at hStruct
        · exact .structType name
        · cases hStruct
      · split at h
        · rename_i hInterface
          cases h
          unfold TypeExpr.isInterface at hInterface
          split at hInterface
          · exact .interfaceType name
          · cases hInterface
        · cases h
  · cases h
  · cases h

/- A constant with a kind is one name on its own. -/
theorem hasKind_of_constKind
    {specs : List Spec}
    {kind : Kind}
    (h : constKind specs = .ok kind) :
    HasKind (.general .constKeyword specs) kind := by
  unfold constKind at h
  split at h
  · rename_i name
    cases h
    exact .constant name
  · cases h
  · cases h
  · cases h

/- Nothing gets a kind that it does not have. -/
theorem hasKind_of_classify
    {d : Decl}
    {locate : Locator}
    {kind : Kind}
    (h : d.classify locate = .ok kind) :
    HasKind d.body kind := by
  unfold classify at h
  split at h
  · rename_i name hBody
    cases h
    exact hBody ▸ .function name
  · cases h
  · rename_i name receiver rest hBody
    split at h
    · rename_i leading hLeading
      cases h
      exact hBody ▸
        .method name rest
          (TypeExpr.leading?_eq_some_iff.mp hLeading)
    · cases h
  · rename_i keyword specs hBody
    rw [hBody]
    split at h
    · rename_i kind' hKind
      cases h
      unfold generalKind at hKind
      split at hKind
      · exact hasKind_of_typeKind hKind
      · exact hasKind_of_constKind hKind
      · cases hKind
    · cases h
  · cases h

/- Classification finds the kind of a declaration. -/
theorem classify_eq_ok_iff
    {d : Decl}
    {locate : Locator}
    {kind : Kind} :
    d.classify locate = .ok kind ↔ HasKind d.body kind := by
  constructor
  · exact hasKind_of_classify
  · intro h
    unfold classify
    generalize d.body = body at h
    cases h with
    | function => rfl
    | method name rest hLeads =>
        simp only [TypeExpr.leading?_eq_some_iff.mpr hLeads]
    | structType => rfl
    | interfaceType => rfl
    | constant => rfl

------------------------------------------------------------
-- Rejected Declarations
------------------------------------------------------------

/- Is this a function with a list of receivers? -/
def hasReceivers : Body → Bool
  | .func _ (some _) => true
  | _ => false

/- The part that a rejection points at. -/
def rejectedPart : Body → Part
  | .func _ (some (_ :: _)) => .receiver
  | _ => .whole

/- What is reported of a declaration without a kind. -/
structure IsRejection
    (d : Decl)
    (locate : Locator)
    (report : Diagnostic) : Prop where
  severity : report.severity = .error
  code :
    report.code =
      if hasReceivers d.body then
        Diagnostic.malformedSelfType
      else
        Diagnostic.unsupportedDeclaration
  span : report.span = locate (rejectedPart d.body)

/- Whatever has no kind is rejected in one of two ways. -/
theorem isRejection_of_classify
    {d : Decl}
    {locate : Locator}
    {report : Diagnostic}
    (h : d.classify locate = .error report) :
    IsRejection d locate report := by
  unfold classify at h
  split at h
  · cases h
  · rename_i name hBody
    cases h
    exact
      { severity := rfl
        code := by rw [hBody]; rfl
        span := by rw [hBody]; rfl }
  · rename_i name receiver rest hBody
    split at h
    · cases h
    · cases h
      exact
        { severity := rfl
          code := by rw [hBody]; rfl
          span := by rw [hBody]; rfl }
  · rename_i keyword specs hBody
    split at h
    · cases h
    · cases h
      exact
        { severity := rfl
          code := by rw [hBody]; rfl
          span := by rw [hBody]; rfl }
  · rename_i hBody
    cases h
    exact
      { severity := rfl
        code := by rw [hBody]; rfl
        span := by rw [hBody]; rfl }

end Decl

------------------------------------------------------------
-- Access to Names
------------------------------------------------------------

/-
  A name inside of something, and what comes out when another
  name is written in its place.
-/
structure Focus (α : Type) where
  name : Bytes
  put : Bytes → α

/- The same name, seen from further outside. -/
def Focus.within
    {α β : Type}
    (f : Focus α)
    (wrap : α → β) : Focus β :=
  ⟨f.name, fun new => wrap (f.put new)⟩

namespace TypeExpr

/- The place of the leading name. -/
def focus? : TypeExpr → Option (Focus TypeExpr)
  | .ident name => some ⟨name, .ident⟩
  | .star x => x.focus?.map (·.within .star)
  | .paren x => x.focus?.map (·.within .paren)
  | .index x arg => x.focus?.map (·.within (.index · arg))
  | .indexList x args =>
      x.focus?.map (·.within (.indexList · args))
  | .selector x sel => x.focus?.map (·.within (.selector · sel))
  | _ => none

/- The place of the leading name is where the lookup arrives. -/
theorem Leads.focus?
    {name : Bytes}
    {x : TypeExpr}
    (h : x.Leads name) :
    x.focus? = some ⟨name, fun new => x.withLeading new⟩ := by
  induction h with
  | ident => rfl
  | star _ ih =>
      simp only [TypeExpr.focus?, ih, Option.map_some]
      rfl
  | paren _ ih =>
      simp only [TypeExpr.focus?, ih, Option.map_some]
      rfl
  | index _ _ ih =>
      simp only [TypeExpr.focus?, ih, Option.map_some]
      rfl
  | indexList _ _ ih =>
      simp only [TypeExpr.focus?, ih, Option.map_some]
      rfl
  | selector _ _ ih =>
      simp only [TypeExpr.focus?, ih, Option.map_some]
      rfl

end TypeExpr

namespace Decl

/-
  Why a lookup ends without a name: something has another form
  than expected, a list has no first element, or a part that
  is needed is missing.
-/
inductive Fault where
  | form
  | empty
  | missing
deriving DecidableEq, Repr

/- The name and the receivers of what must be a function. -/
def asFunction : Body → Except Fault (Bytes × Option (List TypeExpr))
  | .func name receivers => .ok (name, receivers)
  | _ => .error .form

/- The items of what must be another declaration. -/
def asGeneral : Body → Except Fault (Keyword × List Spec)
  | .general keyword specs => .ok (keyword, specs)
  | _ => .error .form

/- The parts of what must be a type. -/
def asType : Spec → Except Fault (Bytes × Bool × TypeExpr)
  | .typeSpec name assign expr => .ok (name, assign, expr)
  | _ => .error .form

/- The names of what must be a list of values. -/
def asValue : Spec → Except Fault (List Bytes)
  | .valueSpec names => .ok names
  | _ => .error .form

/- The first element of a list that must have one. -/
def first
    {α : Type} : List α → Except Fault (α × List α)
  | [] => .error .empty
  | a :: rest => .ok (a, rest)

/- A part that must be there. -/
def present
    {α : Type} : Option α → Except Fault α
  | none => .error .missing
  | some a => .ok a

/-
  The place of the identifying name of a declaration that is
  expected to be of a kind.  Nothing is checked beforehand.
-/
def access : Kind → Body → Except Fault (Focus Body)
  | .function, body => do
      let (name, receivers) ← asFunction body
      pure ⟨name, fun new => .func new receivers⟩
  | .method, body => do
      let (name, receivers) ← asFunction body
      let (x, rest) ← first (← present receivers)
      let f ← present x.focus?
      pure (f.within fun y => .func name (some (y :: rest)))
  | .structType, body | .interfaceType, body => do
      let (keyword, specs) ← asGeneral body
      let (spec, rest) ← first specs
      let (name, assign, expr) ← asType spec
      pure
        ⟨name, fun new =>
          .general keyword (.typeSpec new assign expr :: rest)⟩
  | .constant, body => do
      let (keyword, specs) ← asGeneral body
      let (spec, rest) ← first specs
      let (name, names) ← first (← asValue spec)
      pure
        ⟨name, fun new =>
          .general keyword (.valueSpec (new :: names) :: rest)⟩

/-
  A declaration of a kind is accessible as such: the lookup
  arrives at its identifying name, and writing there renames
  the declaration.
-/
theorem HasKind.accessible
    {body : Body}
    {kind : Kind}
    (h : HasKind body kind) :
    ∃ f,
      access kind body = .ok f ∧
        identifier? body = some f.name ∧
        ∀ new, f.put new = renameBody new body := by
  cases h with
  | function name => exact ⟨_, rfl, rfl, fun _ => rfl⟩
  | @method leading x name rest hLeads =>
      refine
        ⟨⟨leading, fun new =>
            .func name (some (x.withLeading new :: rest))⟩,
          ?_, TypeExpr.leading?_eq_some_iff.mpr hLeads,
          fun _ => rfl⟩
      change
        (do
          let f ← present x.focus?
          pure (f.within fun y =>
            Body.func name (some (y :: rest)))) =
          Except.ok _
      rw [hLeads.focus?]
      rfl
  | structType name => exact ⟨_, rfl, rfl, fun _ => rfl⟩
  | interfaceType name => exact ⟨_, rfl, rfl, fun _ => rfl⟩
  | constant name => exact ⟨_, rfl, rfl, fun _ => rfl⟩

/- Without its kind, a declaration may have no such name. -/
example :
    access .method (.func [] (some [.array (.ident [])])) =
        .error .missing ∧
      access .structType (.general .typeKeyword []) =
        .error .empty ∧
      access .constant (.general .typeKeyword
        [.typeSpec [] false .missing]) = .error .form :=
  ⟨rfl, rfl, rfl⟩

end Decl

end Namesake
