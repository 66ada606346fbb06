import Mathlib.Data.List.Perm.Basic
import Mathlib.Tactic.IntervalCases
import Namesake.Diagnostic

/-
  Collections of diagnostics as lists.  Merging is associative
  with the empty collection as its unit, and only diagnostics
  of severity error are filed as errors.  Whatever is done to
  a collection, it reports what was filed, sorted by severity.

  Main declarations:
    * `Diagnostics.merge_assoc`
    * `Diagnostics.errors_foldl_add`
    * `Diagnostics.bySeverity`
    * `Diagnostics.Collects`
    * `Diagnostics.History`
    * `Diagnostics.History.reports_what_was_filed`
-/

namespace Namesake

/- The place of a severity: errors, warnings and all others. -/
def Severity.rank : Severity → Nat
  | .error => 0
  | .warning => 1
  | .info => 2
  | .unnamed _ => 2

/-
  The diagnostic that a failure is filed as: the one that it
  holds, or an error without a code that has its wording.
-/
def Failure.asDiagnostic
    (f : Failure) : Diagnostic :=
  f.diagnostic?.getD
    { severity := .error, code := [], message := f.message }

namespace Diagnostics

------------------------------------------------------------
-- Merging
------------------------------------------------------------

/- The errors of two lists are told one after the other. -/
@[simp] theorem errors_merge
    (ds other : Diagnostics) :
    (ds.merge other).errors = ds.errors ++ other.errors :=
  rfl

@[simp] theorem empty_merge
    (ds : Diagnostics) :
    ({} : Diagnostics).merge ds = ds :=
  rfl

@[simp] theorem merge_empty
    (ds : Diagnostics) :
    ds.merge {} = ds := by
  simp [merge]

/- How lists are grouped does not matter. -/
theorem merge_assoc
    (ds other last : Diagnostics) :
    (ds.merge other).merge last =
      ds.merge (other.merge last) := by
  simp [merge]

------------------------------------------------------------
-- Filing
------------------------------------------------------------

/- A failure is filed as a diagnostic. -/
theorem addError_cause
    (ds : Diagnostics)
    (f : Failure) :
    ds.addError f.cause = ds.add f.asDiagnostic := by
  unfold Failure.cause Failure.asDiagnostic
  cases f.diagnostic? with
  | none => rfl
  | some d => rfl

/- An error goes behind the errors that were filed before. -/
theorem errors_add_of_error
    (ds : Diagnostics)
    {d : Diagnostic}
    (h : d.severity = .error) :
    (ds.add d).errors = ds.errors ++ [d] := by
  simp [add, h]

/- Filing warnings adds no error. -/
theorem errors_foldl_add
    (ds : Diagnostics)
    {warnings : List Diagnostic}
    (h : ∀ d ∈ warnings, d.severity = .warning) :
    (warnings.foldl add ds).errors = ds.errors := by
  induction warnings generalizing ds with
  | nil => rfl
  | cons d warnings ih =>
      have hHead : d.severity = .warning := h d (by simp)
      have hTail := ih (ds.add d) fun other hOther =>
        h other (by simp [hOther])
      rw [List.foldl_cons, hTail]
      simp [add, hHead]

theorem hasErrors_eq_false_iff
    (ds : Diagnostics) :
    ds.hasErrors = false ↔ ds.errors = [] := by
  simp [hasErrors]

------------------------------------------------------------
-- Order of a Report
------------------------------------------------------------

/- The diagnostics with a given rank, in their order. -/
def ranked
    (rank : Nat)
    (filed : List Diagnostic) : List Diagnostic :=
  filed.filter (·.severity.rank = rank)

/-
  Diagnostics in the order of a report: errors, warnings and
  then all others, each of them in the order they have.
-/
def bySeverity
    (filed : List Diagnostic) : List Diagnostic :=
  filed.filter (·.severity = .error) ++
    filed.filter (·.severity = .warning) ++
    filed.filter fun d =>
      d.severity ≠ .error ∧ d.severity ≠ .warning

/- The first rank is that of errors. -/
theorem ranked_zero
    (filed : List Diagnostic) :
    ranked 0 filed = filed.filter (·.severity = .error) := by
  apply List.filter_congr
  intro d _
  cases d.severity <;> simp [Severity.rank]

/- A report goes through the ranks from the first to the last. -/
theorem bySeverity_eq
    (filed : List Diagnostic) :
    bySeverity filed =
      ranked 0 filed ++ ranked 1 filed ++ ranked 2 filed := by
  have hWarnings :
      ranked 1 filed = filed.filter (·.severity = .warning) := by
    apply List.filter_congr
    intro d _
    cases d.severity <;> simp [Severity.rank]
  have hOthers :
      ranked 2 filed =
        filed.filter fun d =>
          d.severity ≠ .error ∧ d.severity ≠ .warning := by
    apply List.filter_congr
    intro d _
    cases d.severity <;> simp [Severity.rank]
  rw [ranked_zero, hWarnings, hOthers]
  rfl

/- Filing more adds to the end of each rank. -/
theorem ranked_append
    (rank : Nat)
    (filed later : List Diagnostic) :
    ranked rank (filed ++ later) =
      ranked rank filed ++ ranked rank later :=
  List.filter_append filed later

/- Sorting what is sorted leaves one rank or nothing. -/
theorem ranked_ranked
    (rank other : Nat)
    (filed : List Diagnostic) :
    ranked rank (ranked other filed) =
      if rank = other then ranked rank filed else [] := by
  unfold ranked
  rw [List.filter_filter]
  by_cases hRank : rank = other
  · subst hRank
    simp
  · rw [if_neg hRank, List.filter_eq_nil_iff]
    intro d _
    simp only [Bool.and_eq_true, decide_eq_true_eq]
    omega

/- Sorting keeps the order within each rank. -/
theorem ranked_bySeverity
    {rank : Nat}
    (hRank : rank < 3)
    (filed : List Diagnostic) :
    ranked rank (bySeverity filed) = ranked rank filed := by
  rw [bySeverity_eq, ranked_append, ranked_append,
    ranked_ranked, ranked_ranked, ranked_ranked]
  interval_cases rank <;> simp

theorem ranked_cons
    (rank : Nat)
    (d : Diagnostic)
    (filed : List Diagnostic) :
    ranked rank (d :: filed) =
      if d.severity.rank = rank then
        d :: ranked rank filed
      else
        ranked rank filed := by
  simp [ranked, List.filter_cons]

/- Sorting loses nothing and puts nothing in twice. -/
theorem bySeverity_perm
    (filed : List Diagnostic) :
    (bySeverity filed).Perm filed := by
  induction filed with
  | nil => exact List.Perm.nil
  | cons d filed ih =>
      have hCons : (d :: bySeverity filed).Perm (d :: filed) :=
        ih.cons d
      have hRank :
          d.severity.rank = 0 ∨ d.severity.rank = 1 ∨
            d.severity.rank = 2 := by
        cases d.severity <;> simp [Severity.rank]
      refine List.Perm.trans ?_ hCons
      rw [bySeverity_eq, bySeverity_eq, ranked_cons,
        ranked_cons, ranked_cons]
      rcases hRank with hRank | hRank | hRank
      · rw [if_pos hRank, if_neg (by omega), if_neg (by omega)]
        exact List.Perm.refl _
      · rw [if_neg (by omega), if_pos hRank, if_neg (by omega)]
        exact List.perm_middle.append_right _
      · rw [if_neg (by omega), if_neg (by omega), if_pos hRank]
        exact List.perm_middle

/-
  What a collection has after some diagnostics were filed:
  those of each rank, in the order of filing.
-/
structure Collects
    (ds : Diagnostics)
    (filed : List Diagnostic) : Prop where
  errors : ds.errors = ranked 0 filed
  warnings : ds.warnings = ranked 1 filed
  infos : ds.infos = ranked 2 filed

namespace Collects

variable {ds other : Diagnostics}
variable {filed : List Diagnostic}

/- What was collected is reported in this order. -/
theorem all_eq
    (h : Collects ds filed) :
    ds.all = bySeverity filed := by
  rw [bySeverity_eq, ← h.errors, ← h.warnings, ← h.infos]
  rfl

theorem empty : Collects {} [] :=
  ⟨rfl, rfl, rfl⟩

/- A diagnostic is filed behind all others of its rank. -/
theorem add
    (h : Collects ds filed)
    (d : Diagnostic) :
    Collects (ds.add d) (filed ++ [d]) := by
  have hOne (rank : Nat) :
      ranked rank (filed ++ [d]) =
        ranked rank filed ++
          if d.severity.rank = rank then [d] else [] := by
    rw [ranked_append, ranked_cons]
    rfl
  unfold Diagnostics.add
  cases hSeverity : d.severity
  all_goals
    constructor
  all_goals
    simp [hOne, hSeverity, Severity.rank, h.errors, h.warnings,
      h.infos]

/- A merged collection is filed in the order of its report. -/
theorem merge
    {later : List Diagnostic}
    (h : Collects ds filed)
    (hOther : Collects other later) :
    Collects (ds.merge other) (filed ++ bySeverity later) := by
  constructor
  · rw [ranked_append, ranked_bySeverity (by omega), ← h.errors,
      ← hOther.errors]
    rfl
  · rw [ranked_append, ranked_bySeverity (by omega),
      ← h.warnings, ← hOther.warnings]
    rfl
  · rw [ranked_append, ranked_bySeverity (by omega), ← h.infos,
      ← hOther.infos]
    rfl

end Collects

------------------------------------------------------------
-- Histories
------------------------------------------------------------

/-
  How a collection came about: from the empty one, by filing
  diagnostics and failures and merging other collections, each
  of which came about in the same way.
-/
inductive History where
  | empty
  | add (h : History) (d : Diagnostic)
  | addError (h : History) (failure : Failure)
  | merge (h other : History)

namespace History

/- The collection that a history leads to. -/
def built : History → Diagnostics
  | .empty => {}
  | .add h d => h.built.add d
  | .addError h failure => h.built.addError failure.cause
  | .merge h other => h.built.merge other.built

/-
  The diagnostics that were filed, in the order of filing.  A
  merged collection is filed in the order of its report.
-/
def filed : History → List Diagnostic
  | .empty => []
  | .add h d => h.filed ++ [d]
  | .addError h failure => h.filed ++ [failure.asDiagnostic]
  | .merge h other => h.filed ++ bySeverity other.filed

/- What each step keeps, a history keeps. -/
theorem collects
    (h : History) :
    Collects h.built h.filed := by
  induction h with
  | empty => exact Collects.empty
  | add h d ih => exact ih.add d
  | addError h failure ih =>
      unfold built filed
      rw [addError_cause]
      exact ih.add failure.asDiagnostic
  | merge h other ih ihOther => exact ih.merge ihOther

/-
  A collection has the diagnostics that were filed, sorted by
  severity and otherwise in the order of filing, and its text
  is that of the errors among them, if there are any.  Merging
  is associative, and empty collections do not matter.
-/
theorem reports_what_was_filed
    (h : History) :
    h.built.all = bySeverity h.filed ∧
      h.built.all.Perm h.filed ∧
      (h.built.errorText? = none ↔
        ∀ d ∈ h.filed, d.severity ≠ .error) ∧
      (∀ text ∈ h.built.errorText?,
        text =
          Bytes.join [0x0a]
            ((h.filed.filter (·.severity = .error)).map
              Diagnostic.text)) ∧
      (h.merge .empty).built = h.built ∧
      (History.empty.merge h).built = h.built ∧
      ∀ other last : History,
        ((h.merge other).merge last).built =
          (h.merge (other.merge last)).built := by
  have hCollects := h.collects
  have hErrors :
      h.built.errors = h.filed.filter (·.severity = .error) := by
    rw [hCollects.errors, ranked_zero]
  refine ⟨hCollects.all_eq, ?_, ?_, ?_, ?_, ?_, ?_⟩
  · rw [hCollects.all_eq]
    exact bySeverity_perm h.filed
  · have hNone :
        h.built.hasErrors = false ↔
          ∀ d ∈ h.filed, d.severity ≠ .error := by
      rw [hasErrors_eq_false_iff, hErrors, List.filter_eq_nil_iff]
      simp only [decide_eq_true_eq, ne_eq]
    rw [← hNone]
    unfold errorText?
    cases h.built.hasErrors <;> simp
  · intro text hText
    unfold errorText? at hText
    split at hText
    · rw [← hErrors]
      exact (Option.some.inj hText).symm
    · cases hText
  · exact merge_empty h.built
  · exact empty_merge h.built
  · intro other last
    exact merge_assoc h.built other.built last.built

end History

end Diagnostics

end Namesake
