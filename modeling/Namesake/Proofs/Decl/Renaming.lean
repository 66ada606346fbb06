import Namesake.Decl.Kind

/-
  What renaming a declaration changes.  Two declarations are
  related if they differ in the identifying name alone; the
  relation says where that name stands for each kind, and
  leaves every other part as it is.

  Main declarations:
    * `TypeExpr.Renamed`
    * `Decl.Renamed`
    * `Decl.renamed_renameBody`
    * `Decl.Renamed.renameBody_eq`
    * `Decl.renameBody_renameBody`
    * `Decl.renameBody_self`
    * `Decl.exists_identifier?_of_classify`
-/

namespace Namesake

------------------------------------------------------------
-- Leading Names
------------------------------------------------------------

/-
  Types that differ in the leading name: it is `old` in the
  first and `new` in the second.
-/
inductive TypeExpr.Renamed
    (old new : Bytes) : TypeExpr → TypeExpr → Prop where
  | ident : Renamed old new (.ident old) (.ident new)
  | star
      {x y : TypeExpr}
      (h : Renamed old new x y) :
      Renamed old new (.star x) (.star y)
  | paren
      {x y : TypeExpr}
      (h : Renamed old new x y) :
      Renamed old new (.paren x) (.paren y)
  | index
      {x y : TypeExpr}
      (arg : TypeExpr)
      (h : Renamed old new x y) :
      Renamed old new (.index x arg) (.index y arg)
  | indexList
      {x y : TypeExpr}
      (args : List TypeExpr)
      (h : Renamed old new x y) :
      Renamed old new (.indexList x args) (.indexList y args)
  | selector
      {x y : TypeExpr}
      (name : Bytes)
      (h : Renamed old new x y) :
      Renamed old new (.selector x name) (.selector y name)

namespace TypeExpr

/- A type with a leading name can be renamed. -/
theorem renamed_withLeading
    {old : Bytes}
    {x : TypeExpr}
    (new : Bytes)
    (h : x.leading? = some old) :
    Renamed old new x (x.withLeading new) := by
  fun_induction leading? x with
  | case1 name =>
      cases h
      exact .ident
  | case2 x ih => exact .star (ih h)
  | case3 x ih => exact .paren (ih h)
  | case4 x arg ih => exact .index arg (ih h)
  | case5 x args ih => exact .indexList args (ih h)
  | case6 x name ih => exact .selector name (ih h)
  | case7 => cases h

namespace Renamed

/- The old name can be put back. -/
theorem symm
    {old new : Bytes}
    {x y : TypeExpr}
    (h : Renamed old new x y) :
    Renamed new old y x := by
  induction h with
  | ident => exact .ident
  | star _ ih => exact .star ih
  | paren _ ih => exact .paren ih
  | index arg _ ih => exact .index arg ih
  | indexList args _ ih => exact .indexList args ih
  | selector name _ ih => exact .selector name ih

/- Only the last name counts. -/
theorem trans
    {old mid new : Bytes}
    {x y z : TypeExpr}
    (hFirst : Renamed old mid x y)
    (hSecond : Renamed mid new y z) :
    Renamed old new x z := by
  induction hFirst generalizing z with
  | ident =>
      cases hSecond
      exact .ident
  | star _ ih =>
      cases hSecond with
      | star h => exact .star (ih h)
  | paren _ ih =>
      cases hSecond with
      | paren h => exact .paren (ih h)
  | index arg _ ih =>
      cases hSecond with
      | index _ h => exact .index arg (ih h)
  | indexList args _ ih =>
      cases hSecond with
      | indexList _ h => exact .indexList args (ih h)
  | selector name _ ih =>
      cases hSecond with
      | selector _ h => exact .selector name (ih h)

/- The new name is found where the old one was. -/
theorem leading?_eq
    {old new : Bytes}
    {x y : TypeExpr}
    (h : Renamed old new x y) :
    y.leading? = some new := by
  induction h with
  | ident => rfl
  | star _ ih => exact ih
  | paren _ ih => exact ih
  | index _ _ ih => exact ih
  | indexList _ _ ih => exact ih
  | selector _ _ ih => exact ih

/- There is one way to rename a type. -/
theorem withLeading_eq
    {old new : Bytes}
    {x y : TypeExpr}
    (h : Renamed old new x y) :
    x.withLeading new = y := by
  induction h with
  | ident => rfl
  | star _ ih => simp only [withLeading, ih]
  | paren _ ih => simp only [withLeading, ih]
  | index _ _ ih => simp only [withLeading, ih]
  | indexList _ _ ih => simp only [withLeading, ih]
  | selector _ _ ih => simp only [withLeading, ih]

end Renamed

end TypeExpr

------------------------------------------------------------
-- Identifying Names
------------------------------------------------------------

namespace Decl

/-
  Declarations that differ in the identifying name.  A method
  is identified by the type of its first receiver and keeps
  its own name and all further receivers.
-/
inductive Renamed
    (old new : Bytes) : Body → Body → Prop where
  | function :
      Renamed old new (.func old none) (.func new none)
  | method
      {x y : TypeExpr}
      (name : Bytes)
      (rest : List TypeExpr)
      (h : x.Renamed old new y) :
      Renamed old new
        (.func name (some (x :: rest)))
        (.func name (some (y :: rest)))
  | type
      (assign : Bool)
      (expr : TypeExpr) :
      Renamed old new
        (.general .typeKeyword [.typeSpec old assign expr])
        (.general .typeKeyword [.typeSpec new assign expr])
  | constant :
      Renamed old new
        (.general .constKeyword [.valueSpec [old]])
        (.general .constKeyword [.valueSpec [new]])

/- What has an identifying name can be renamed. -/
theorem renamed_renameBody
    {old : Bytes}
    {body : Body}
    (new : Bytes)
    (h : identifier? body = some old) :
    Renamed old new body (renameBody new body) := by
  unfold identifier? at h
  split at h
  · cases h
    exact .function
  · rename_i name receiver rest
    exact .method name rest
      (TypeExpr.renamed_withLeading new h)
  · rename_i assign expr
    cases h
    exact .type assign expr
  · cases h
    exact .constant
  · cases h

namespace Renamed

theorem symm
    {old new : Bytes}
    {body body' : Body}
    (h : Renamed old new body body') :
    Renamed new old body' body := by
  cases h with
  | function => exact .function
  | method name rest h => exact .method name rest h.symm
  | type assign expr => exact .type assign expr
  | constant => exact .constant

theorem trans
    {old mid new : Bytes}
    {body body' body'' : Body}
    (hFirst : Renamed old mid body body')
    (hSecond : Renamed mid new body' body'') :
    Renamed old new body body'' := by
  cases hFirst with
  | function =>
      cases hSecond
      exact .function
  | method name rest h =>
      cases hSecond with
      | method _ _ h' => exact .method name rest (h.trans h')
  | type assign expr =>
      cases hSecond
      exact .type assign expr
  | constant =>
      cases hSecond
      exact .constant

theorem identifier?_eq
    {old new : Bytes}
    {body body' : Body}
    (h : Renamed old new body body') :
    identifier? body' = some new := by
  cases h with
  | function => rfl
  | method name rest h => exact h.leading?_eq
  | type => rfl
  | constant => rfl

/- There is one way to rename what is declared. -/
theorem renameBody_eq
    {old new : Bytes}
    {body body' : Body}
    (h : Renamed old new body body') :
    renameBody new body = body' := by
  cases h with
  | function => rfl
  | method name rest h =>
      simp only [renameBody, h.withLeading_eq]
  | type => rfl
  | constant => rfl

end Renamed

/- Of two renamings in a row the second counts. -/
theorem renameBody_renameBody
    {old : Bytes}
    {body : Body}
    (mid new : Bytes)
    (h : identifier? body = some old) :
    renameBody new (renameBody mid body) =
      renameBody new body := by
  have hMid := renamed_renameBody mid h
  have hNew := renamed_renameBody new h
  exact (hMid.symm.trans hNew).renameBody_eq

/- Renaming to the current name changes nothing. -/
theorem renameBody_self
    {old : Bytes}
    {body : Body}
    (h : identifier? body = some old) :
    renameBody old body = body := by
  have hSame := renamed_renameBody old h
  exact (hSame.trans hSame.symm).renameBody_eq

------------------------------------------------------------
-- Classified Declarations
------------------------------------------------------------

/- A declaration with a kind has a name to be replaced. -/
private theorem exists_identifier?_of_generalKind
    {keyword : Keyword}
    {specs : List Spec}
    {kind : Kind}
    (h : generalKind keyword specs = .ok kind) :
    ∃ name,
      identifier? (.general keyword specs) = some name := by
  unfold generalKind at h
  split at h
  · unfold typeKind at h
    split at h
    · exact ⟨_, rfl⟩
    · cases h
    · cases h
  · unfold constKind at h
    split at h
    · exact ⟨_, rfl⟩
    · cases h
    · cases h
    · cases h
  · cases h

/- A declaration of a kind has an identifying name. -/
theorem exists_identifier?_of_classify
    {d : Decl}
    {locate : Locator}
    {kind : Kind}
    (h : d.classify locate = .ok kind) :
    ∃ name, identifier? d.body = some name := by
  unfold classify at h
  split at h
  · rename_i name hBody
    exact ⟨name, by rw [hBody]; rfl⟩
  · cases h
  · rename_i name receiver rest hBody
    split at h
    · rename_i leading hLeading
      exact ⟨leading, by rw [hBody]; exact hLeading⟩
    · cases h
  · rename_i keyword specs hBody
    rw [hBody]
    split at h
    · rename_i kind' hKind
      exact exists_identifier?_of_generalKind hKind
    · cases h
  · cases h

end Decl

end Namesake
