import Namesake.Proofs.Decl.Kinds
import Namesake.Proofs.Expand.Clones

/-
  Which declarations are expanded.  With aliases, an expansion
  succeeds exactly for the declarations of a kind, whatever
  the others look like; it then never misses the name it has
  to read or to overwrite.  All others end in one report.

  Main declarations:
    * `Expand.IsReached`
    * `Expand.isReached_of_classify`
    * `Expand.expand_accepts_exactly_kinds`
-/

namespace Namesake

namespace Expand

open Decl (HasKind IsRejection access)

------------------------------------------------------------
-- Names in an Expansion
------------------------------------------------------------

/-
  The name of an expansion is reached in the declaration, and
  the names of the duplicates are written where it is reached
  in the declaration without its directive, whose comment
  lines can be changed.
-/
structure IsReached
    (r : Request)
    (result : Result) : Prop where
  read :
    ∃ f,
      access result.kind r.decl.body = .ok f ∧
        f.name = result.name
  written :
    ∃ f,
      access result.kind result.original.body = .ok f ∧
        result.clones.map Decl.body =
          r.aliases.map fun a => f.put a.name
  commented : result.original.isBad = false

/- Removing a directive changes comment lines alone. -/
theorem exists_clean_eq
    (directive : Option Directive)
    (d : Decl) :
    ∃ start, clean directive d = { d with start := start } := by
  unfold clean Decl.withStart
  split
  · exact ⟨d.start, rfl⟩
  · rename_i dir
    split
    · exact ⟨d.start, rfl⟩
    · exact ⟨dir.strip d.start, rfl⟩

/- Taking lines out of the comments leaves the code alone. -/
theorem clean_body
    (directive : Option Directive)
    (d : Decl) :
    (clean directive d).body = d.body := by
  rcases exists_clean_eq directive d with ⟨start, hClean⟩
  rw [hClean]

/- Code that cannot be read has no kind. -/
theorem isBad_eq_false_of_hasKind
    {d : Decl}
    {kind : Kind}
    (h : HasKind d.body kind) :
    d.isBad = false := by
  unfold Decl.isBad
  split
  · rename_i hBody
    rw [hBody] at h
    cases h
  · rfl

/- The names are reached in every expansion. -/
theorem isReached_of_classify
    {r : Request}
    {kind : Kind}
    {result : Result}
    (hKind : r.decl.classify r.locate = .ok kind)
    (hAliases : r.aliases ≠ [])
    (hResult : expand r = .ok result) :
    result.kind = kind ∧ IsReached r result := by
  rw [expand_of_classify hAliases hKind] at hResult
  cases hResult
  have hHas := Decl.classify_eq_ok_iff.mp hKind
  have hClean :
      HasKind (clean r.directive r.decl).body kind := by
    rw [clean_body]
    exact hHas
  rcases hHas.accessible with ⟨f, hAccess, hName, hPut⟩
  refine ⟨rfl, ?_⟩
  refine
    { read := ⟨f, hAccess, ?_⟩
      written := ⟨f, ?_, ?_⟩
      commented := isBad_eq_false_of_hasKind hClean }
  · simp [Decl.identifier, hName]
  · rw [clean_body]
    exact hAccess
  · simp only [List.map_map]
    refine List.map_congr_left ?_
    intro a _
    change Decl.renameBody a.name (clean r.directive r.decl).body =
      f.put a.name
    rw [clean_body, hPut]

------------------------------------------------------------
-- Accepted and Rejected Declarations
------------------------------------------------------------

/-
  With aliases, exactly the declarations of a kind are
  expanded, as declarations of that kind, and all names are
  reached; every other one is rejected with one report.
-/
theorem expand_accepts_exactly_kinds
    {r : Request}
    (hAliases : r.aliases ≠ []) :
    ((∃ result, expand r = .ok result) ↔
        ∃ kind, HasKind r.decl.body kind) ∧
      (∀ result,
        expand r = .ok result →
          HasKind r.decl.body result.kind ∧
            IsReached r result) ∧
      ((¬ ∃ kind, HasKind r.decl.body kind) →
        ∃ report,
          expand r = .error (.rejected report) ∧
            IsRejection r.decl r.locate report) := by
  have hEmpty : r.aliases.isEmpty = false :=
    List.isEmpty_eq_false_iff.mpr hAliases
  cases hKind : r.decl.classify r.locate with
  | ok kind =>
      have hHas := Decl.classify_eq_ok_iff.mp hKind
      refine ⟨⟨fun _ => ⟨kind, hHas⟩, fun _ => ?_⟩, ?_, ?_⟩
      · exact ⟨_, expand_of_classify hAliases hKind⟩
      · intro result hResult
        rcases isReached_of_classify hKind hAliases hResult with
          ⟨rfl, hReached⟩
        exact ⟨hHas, hReached⟩
      · intro hNone
        exact absurd ⟨kind, hHas⟩ hNone
  | error report =>
      have hExpand : expand r = .error (.rejected report) := by
        simp only [expand, hEmpty, Bool.false_eq_true,
          if_false, hKind]
      have hNone : ¬ ∃ kind, HasKind r.decl.body kind := by
        rintro ⟨kind, hHas⟩
        have hOk : r.decl.classify r.locate = .ok kind :=
          Decl.classify_eq_ok_iff.mpr hHas
        rw [hKind] at hOk
        cases hOk
      rw [hExpand]
      refine ⟨⟨?_, ?_⟩, ?_, ?_⟩
      · rintro ⟨_, ⟨⟩⟩
      · intro hSome
        exact absurd hSome hNone
      · rintro _ ⟨⟩
      · intro _
        exact
          ⟨report, rfl, Decl.isRejection_of_classify hKind⟩

/- A method of a list of pointers to a named type. -/
def listMethodRequest : Request :=
  { decl :=
      { body :=
          .func (utf8 "Close")
            (some
              [.paren (.array (.star (.ident (utf8 "Pool"))))]) }
    aliases := [{ name := utf8 "Shut" }] }

theorem expand_rejects_list_method :
    ∃ report,
      expand listMethodRequest = .error (.rejected report) ∧
        IsRejection listMethodRequest.decl
          listMethodRequest.locate report := by
  have hAliases : listMethodRequest.aliases ≠ [] := by
    simp [listMethodRequest]
  refine (expand_accepts_exactly_kinds hAliases).2.2 ?_
  rintro ⟨kind, hHas⟩
  cases hHas with
  | method _ _ hLeads =>
      cases hLeads with
      | paren hLeads => cases hLeads

end Expand

end Namesake
