import Mathlib.Data.List.Induction
import Namesake.Proofs.Spelling.Distance

/-
  The suggestion for a misspelt word is the first of the
  candidates nearest to it among those that are near enough.
  A word that is itself a candidate has no suggestion, at
  whatever place of the list it stands.

  Main declarations:
    * `Spelling.Eligible`
    * `Spelling.IsNearest`
    * `Spelling.IsNearest.unique`
    * `Spelling.Answers.better`
    * `Spelling.closest?_finds_first_nearest`
-/

namespace Namesake

namespace Spelling

------------------------------------------------------------
-- Eligible Candidates
------------------------------------------------------------

/- The code points of a text in lower case. -/
def lowerCodes
    (s : Bytes) : List Nat :=
  s.toLower.glyphs.map Glyph.code

/-
  A candidate that `e` edits of single characters, and no
  fewer, make of the word, upper and lower case being the
  same.  Lengths of texts count bytes.
-/
structure Eligible
    (word candidate : Bytes)
    (e : Nat) : Prop where
  least :
    IsLeast
      {n | Edits n (lowerCodes word) (lowerCodes candidate)} e
  near : e ≤ 2
  similar : 2 * e < max word.length candidate.length

theorem isLeast_textDistance
    (word candidate : Bytes) :
    IsLeast
      {n | Edits n (lowerCodes word) (lowerCodes candidate)}
      (textDistance word candidate) :=
  isLeast_distance (lowerCodes word) (lowerCodes candidate)

theorem Eligible.eq_textDistance
    {word candidate : Bytes}
    {e : Nat}
    (h : Eligible word candidate e) :
    e = textDistance word candidate :=
  h.least.unique (isLeast_textDistance word candidate)

/- The check of a candidate at its distance. -/
theorem isEligible_iff
    {word candidate : Bytes} :
    isEligible word candidate (textDistance word candidate) =
        true ↔
      Eligible word candidate (textDistance word candidate) := by
  simp only [isEligible, Bool.and_eq_true, decide_eq_true_eq]
  constructor
  · rintro ⟨hNear, hSimilar⟩
    exact
      { least := isLeast_textDistance word candidate
        near := hNear
        similar := by omega }
  · intro h
    have hSimilar := h.similar
    exact ⟨h.near, by omega⟩

/- A candidate that fails the check is eligible at no distance. -/
theorem not_eligible
    {word candidate : Bytes}
    (h :
      isEligible word candidate (textDistance word candidate) ≠
        true)
    (e : Nat) :
    ¬ Eligible word candidate e := by
  intro hEligible
  apply h
  rw [isEligible_iff, ← hEligible.eq_textDistance]
  exact hEligible

------------------------------------------------------------
-- Nearest Candidates
------------------------------------------------------------

/-
  An eligible candidate that is nearer than all eligible ones
  in front of it, and at least as near as those behind it.
-/
def IsNearest
    (word : Bytes)
    (candidates : List Bytes)
    (c : Bytes)
    (e : Nat) : Prop :=
  ∃ front rest,
    candidates = front ++ c :: rest ∧
      Eligible word c e ∧
      (∀ c' ∈ front, ∀ e', Eligible word c' e' → e < e') ∧
      ∀ c' ∈ rest, ∀ e', Eligible word c' e' → e ≤ e'

namespace IsNearest

variable {word c : Bytes}
variable {candidates : List Bytes}
variable {e : Nat}

theorem eligible
    (h : IsNearest word candidates c e) :
    Eligible word c e := by
  rcases h with ⟨_, _, _, hEligible, _⟩
  exact hEligible

theorem mem
    (h : IsNearest word candidates c e) :
    c ∈ candidates := by
  rcases h with ⟨front, rest, rfl, _⟩
  exact List.mem_append_right front List.mem_cons_self

/- No eligible candidate is nearer. -/
theorem le
    (h : IsNearest word candidates c e)
    {c' : Bytes}
    {e' : Nat}
    (hMem : c' ∈ candidates)
    (hEligible : Eligible word c' e') :
    e ≤ e' := by
  rcases h with ⟨front, rest, rfl, hThis, hFront, hRest⟩
  rcases List.mem_append.mp hMem with hMem | hMem
  · exact (hFront c' hMem e' hEligible).le
  · rcases List.mem_cons.mp hMem with rfl | hMem
    · exact (hThis.least.unique hEligible.least).le
    · exact hRest c' hMem e' hEligible

/- A further candidate that is not nearer changes nothing. -/
theorem concat
    (h : IsNearest word candidates c e)
    {last : Bytes}
    (hLast : ∀ e', Eligible word last e' → e ≤ e') :
    IsNearest word (candidates ++ [last]) c e := by
  rcases h with ⟨front, rest, rfl, hThis, hFront, hRest⟩
  refine
    ⟨front, rest ++ [last], by simp, hThis, hFront, ?_⟩
  intro c' hMem e' hEligible
  rcases List.mem_append.mp hMem with hMem | hMem
  · exact hRest c' hMem e' hEligible
  · rw [List.mem_singleton] at hMem
    exact hLast e' (hMem ▸ hEligible)

/- There is one nearest candidate that comes first. -/
theorem unique
    {c' : Bytes}
    {e' : Nat}
    (h : IsNearest word candidates c e)
    (h' : IsNearest word candidates c' e') :
    c = c' := by
  rcases h with ⟨front, rest, rfl, hThis, hFront, hRest⟩
  rcases h' with
    ⟨front', rest', hSplit, hThis', hFront', hRest'⟩
  rcases List.append_eq_append_iff.mp hSplit with
    ⟨between, hBefore, hBehind⟩ | ⟨between, hBefore, hBehind⟩
  · cases between with
    | nil => exact (List.cons.inj hBehind).1
    | cons x between =>
        rcases List.cons.inj hBehind with ⟨rfl, rfl⟩
        have hLt := hFront' c (by simp [hBefore]) e hThis
        have hLe := hRest c' (by simp) e' hThis'
        omega
  · cases between with
    | nil => exact (List.cons.inj hBehind).1.symm
    | cons x between =>
        rcases List.cons.inj hBehind with ⟨rfl, rfl⟩
        have hLt := hFront c' (by simp [hBefore]) e' hThis'
        have hLe := hRest' c (by simp) e hThis
        omega

end IsNearest

------------------------------------------------------------
-- The Search
------------------------------------------------------------

/-
  What the search holds behind some candidates: the nearest
  of them with its distance, or nothing if none is eligible.
-/
inductive Answers
    (word : Bytes)
    (candidates : List Bytes) : Option (Bytes × Nat) → Prop where
  | nothing
      (h : ∀ c ∈ candidates, ∀ e, ¬ Eligible word c e) :
      Answers word candidates none
  | nearest
      {c : Bytes}
      {e : Nat}
      (h : IsNearest word candidates c e) :
      Answers word candidates (some (c, e))

/- One more candidate is taken. -/
theorem Answers.better
    {word : Bytes}
    {candidates : List Bytes}
    {best : Option (Bytes × Nat)}
    (c : Bytes)
    (h : Answers word candidates best) :
    Answers word (candidates ++ [c])
      (Spelling.better word best c) := by
  unfold Spelling.better
  simp only
  split
  · rename_i hCheck
    have hThis := isEligible_iff.mp hCheck
    cases h with
    | nothing hNone =>
        refine .nearest ⟨candidates, [], rfl, hThis, ?_, by simp⟩
        intro c' hMem e' hEligible
        exact absurd hEligible (hNone c' hMem e')
    | @nearest b e hBest =>
        simp only
        split
        · rename_i hNearer
          refine
            .nearest ⟨candidates, [], rfl, hThis, ?_, by simp⟩
          intro c' hMem e' hEligible
          exact hNearer.trans_le (hBest.le hMem hEligible)
        · rename_i hNotNearer
          apply Answers.nearest
          apply hBest.concat
          intro e' hEligible
          rw [hEligible.eq_textDistance]
          omega
  · rename_i hCheck
    have hNot := not_eligible hCheck
    cases h with
    | nothing hNone =>
        apply Answers.nothing
        intro c' hMem e'
        rcases List.mem_append.mp hMem with hMem | hMem
        · exact hNone c' hMem e'
        · rw [List.mem_singleton] at hMem
          exact hMem ▸ hNot e'
    | nearest hBest =>
        apply Answers.nearest
        apply hBest.concat
        intro e' hEligible
        exact absurd hEligible (hNot e')

/- The search answers for all candidates. -/
theorem answers_foldl
    (word : Bytes)
    (candidates : List Bytes) :
    Answers word candidates
      (candidates.foldl (better word) none) := by
  induction candidates using List.reverseRecOn with
  | nil => exact .nothing (by simp)
  | append_singleton candidates c ih =>
      rw [List.foldl_append]
      exact ih.better c

/-
  The suggestion is the first nearest candidate, for every
  word that is not itself a candidate; there is none for such
  a word, or if no candidate is eligible.
-/
theorem closest?_finds_first_nearest
    (word : Bytes)
    (candidates : List Bytes) :
    (∀ c,
        closest? word candidates = some c ↔
          word ∉ candidates ∧
            ∃ e, IsNearest word candidates c e) ∧
      (closest? word candidates = none ↔
        word ∈ candidates ∨
          ∀ c ∈ candidates, ∀ e, ¬ Eligible word c e) := by
  unfold closest?
  split
  · rename_i hContains
    have hMem : word ∈ candidates :=
      List.contains_iff_mem.mp hContains
    simp [hMem]
  · rename_i hContains
    have hMem : word ∉ candidates := fun hMem =>
      hContains (List.contains_iff_mem.mpr hMem)
    have hAnswers := answers_foldl word candidates
    generalize candidates.foldl (better word) none = best
      at hAnswers
    cases hAnswers with
    | nothing hNone =>
        refine ⟨fun c => ⟨nofun, ?_⟩, ?_⟩
        · rintro ⟨_, e, hNearest⟩
          exact absurd hNearest.eligible
            (hNone c hNearest.mem e)
        · exact ⟨fun _ => Or.inr hNone, fun _ => rfl⟩
    | @nearest b e hBest =>
        refine ⟨fun c => ⟨?_, ?_⟩, ⟨nofun, ?_⟩⟩
        · rintro ⟨⟩
          exact ⟨hMem, e, hBest⟩
        · rintro ⟨_, e', hNearest⟩
          exact congrArg some (hBest.unique hNearest)
        · rintro (hIn | hNone)
          · exact absurd hIn hMem
          · exact absurd hBest.eligible (hNone b hBest.mem e)

/- Of two candidates at the same distance the first is taken. -/
example :
    closest? (utf8 "Nots") [utf8 "at", utf8 "note", utf8 "not"] =
      some (utf8 "note") := by
  decide +kernel

end Spelling

end Namesake
