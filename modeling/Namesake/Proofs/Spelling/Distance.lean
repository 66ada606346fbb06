import Mathlib.Order.Bounds.Basic
import Mathlib.Order.MinMax
import Namesake.Spelling

/-
  The distance of two lists is the least number of edits that
  turn the first into the second, where an edit inserts,
  deletes or substitutes one element anywhere.

  Edits in a row may touch one place several times, so the
  table is compared with alignments, which walk through both
  lists once.  Alignments compose, hence edits are no better
  than alignments, and an alignment is made of edits.

  Main declarations:
    * `Spelling.Edits`
    * `Spelling.Aligned`
    * `Spelling.Aligned.trans`
    * `Spelling.aligned_le_of_edits`
    * `Spelling.Cost.next`
    * `Spelling.IsTable.foldl`
    * `Spelling.isLeast_distance`
-/

namespace Namesake

namespace Spelling

variable {α : Type}

------------------------------------------------------------
-- Edits
------------------------------------------------------------

/- One element is inserted, deleted or substituted. -/
inductive Edit : List α → List α → Prop where
  | insert
      (front : List α)
      (x : α)
      (rest : List α) :
      Edit (front ++ rest) (front ++ x :: rest)
  | delete
      (front : List α)
      (x : α)
      (rest : List α) :
      Edit (front ++ x :: rest) (front ++ rest)
  | substitute
      (front : List α)
      (x y : α)
      (rest : List α) :
      Edit (front ++ x :: rest) (front ++ y :: rest)

/- A number of edits in a row. -/
inductive Edits : Nat → List α → List α → Prop where
  | done
      (s : List α) :
      Edits 0 s s
  | more
      {n : Nat}
      {s t u : List α}
      (h : Edit s t)
      (hs : Edits n t u) :
      Edits (n + 1) s u

/- An edit behind one more element is an edit. -/
theorem Edit.cons
    {s t : List α}
    (a : α)
    (h : Edit s t) :
    Edit (a :: s) (a :: t) := by
  cases h with
  | insert front x rest => exact .insert (a :: front) x rest
  | delete front x rest => exact .delete (a :: front) x rest
  | substitute front x y rest =>
      exact .substitute (a :: front) x y rest

theorem Edits.cons
    {n : Nat}
    {s t : List α}
    (a : α)
    (h : Edits n s t) :
    Edits n (a :: s) (a :: t) := by
  induction h with
  | done s => exact .done (a :: s)
  | more hEdit _ ih => exact .more (hEdit.cons a) ih

/- The same edits turn the lists read backwards. -/
theorem Edit.reverse
    {s t : List α}
    (h : Edit s t) :
    Edit s.reverse t.reverse := by
  cases h with
  | insert front x rest =>
      simpa using Edit.insert rest.reverse x front.reverse
  | delete front x rest =>
      simpa using Edit.delete rest.reverse x front.reverse
  | substitute front x y rest =>
      simpa using
        Edit.substitute rest.reverse x y front.reverse

/- So reading backwards saves no edits. -/
theorem Edits.reverse
    {n : Nat}
    {s t : List α}
    (h : Edits n s t) :
    Edits n s.reverse t.reverse := by
  induction h with
  | done s => exact .done s.reverse
  | more hEdit _ ih => exact .more hEdit.reverse ih

theorem edits_reverse_iff
    {n : Nat}
    {s t : List α} :
    Edits n s.reverse t.reverse ↔ Edits n s t := by
  constructor
  · intro h
    simpa using h.reverse
  · exact Edits.reverse

------------------------------------------------------------
-- Alignments
------------------------------------------------------------

variable [DecidableEq α]

/- What it costs to put one element below another. -/
def mismatch
    (a b : α) : Nat :=
  if a = b then 0 else 1

theorem mismatch_self
    (a : α) :
    mismatch a a = 0 :=
  if_pos rfl

theorem mismatch_le_one
    (a b : α) :
    mismatch a b ≤ 1 := by
  unfold mismatch
  split <;> omega

/- Going through a third element costs no less. -/
theorem mismatch_triangle
    (a b c : α) :
    mismatch a c ≤ mismatch a b + mismatch b c := by
  by_cases hEq : a = b
  · rw [hEq, mismatch_self, Nat.zero_add]
  · have hOne : mismatch a b = 1 := if_neg hEq
    have hLe := mismatch_le_one a c
    omega

/-
  Two lists that are walked through once, at a cost: each step
  takes an element of the second, of the first, or of both.
-/
inductive Aligned : Nat → List α → List α → Prop where
  | nil : Aligned 0 [] []
  | insert
      {n : Nat}
      {s t : List α}
      (b : α)
      (h : Aligned n s t) :
      Aligned (n + 1) s (b :: t)
  | delete
      {n : Nat}
      {s t : List α}
      (a : α)
      (h : Aligned n s t) :
      Aligned (n + 1) (a :: s) t
  | both
      {n : Nat}
      {s t : List α}
      (a b : α)
      (h : Aligned n s t) :
      Aligned (n + mismatch a b) (a :: s) (b :: t)

namespace Aligned

/- The same element on both sides costs nothing. -/
theorem keep
    {n : Nat}
    {s t : List α}
    (a : α)
    (h : Aligned n s t) :
    Aligned n (a :: s) (a :: t) := by
  have hBoth := h.both a a
  rwa [mismatch_self, Nat.add_zero] at hBoth

/- A list is aligned with itself for free. -/
theorem refl
    (s : List α) :
    Aligned 0 s s := by
  induction s with
  | nil => exact .nil
  | cons a s ih => exact ih.keep a

/- A common beginning costs nothing. -/
theorem append_left
    {n : Nat}
    {s t : List α}
    (front : List α)
    (h : Aligned n s t) :
    Aligned n (front ++ s) (front ++ t) := by
  induction front with
  | nil => exact h
  | cons a front ih => exact ih.keep a

/-
  Alignments compose.  The induction is on the first; where it
  has taken an element of the middle list, the second is
  followed until it takes that element too.
-/
theorem trans
    {n : Nat}
    {s t : List α}
    (hFirst : Aligned n s t) :
    ∀ {m : Nat} {u : List α},
      Aligned m t u → ∃ k ≤ n + m, Aligned k s u := by
  induction hFirst with
  | nil =>
      intro m u hSecond
      exact ⟨m, by omega, hSecond⟩
  | delete a _ ih =>
      intro m u hSecond
      rcases ih hSecond with ⟨k, hLe, h⟩
      exact ⟨k + 1, by omega, h.delete a⟩
  | @insert n s t b _ ih =>
      intro m u hSecond
      generalize hMiddle : b :: t = middle at hSecond
      induction hSecond with
      | nil => cases hMiddle
      | insert c _ ihSecond =>
          rcases ihSecond hMiddle with ⟨k, hLe, h⟩
          exact ⟨k + 1, by omega, h.insert c⟩
      | delete c hSecond =>
          cases hMiddle
          rcases ih hSecond with ⟨k, hLe, h⟩
          exact ⟨k, by omega, h⟩
      | both c d hSecond =>
          cases hMiddle
          rcases ih hSecond with ⟨k, hLe, h⟩
          exact ⟨k + 1, by omega, h.insert d⟩
  | @both n s t a b _ ih =>
      intro m u hSecond
      generalize hMiddle : b :: t = middle at hSecond
      induction hSecond with
      | nil => cases hMiddle
      | insert c _ ihSecond =>
          rcases ihSecond hMiddle with ⟨k, hLe, h⟩
          exact ⟨k + 1, by omega, h.insert c⟩
      | delete c hSecond =>
          cases hMiddle
          rcases ih hSecond with ⟨k, hLe, h⟩
          exact ⟨k + 1, by omega, h.delete a⟩
      | both c d hSecond =>
          cases hMiddle
          rcases ih hSecond with ⟨k, hLe, h⟩
          have hTriangle := mismatch_triangle a b d
          exact ⟨_, by omega, h.both a d⟩

/- An alignment is made of as many edits as it costs. -/
theorem edits
    {n : Nat}
    {s t : List α}
    (h : Aligned n s t) :
    Edits n s t := by
  induction h with
  | nil => exact .done []
  | @insert n s t b _ ih =>
      exact .more (.insert [] b s) (ih.cons b)
  | @delete n s t a _ ih =>
      exact .more (.delete [] a s) ih
  | @both n s t a b _ ih =>
      by_cases hEq : a = b
      · subst hEq
        rw [mismatch_self]
        exact ih.cons a
      · rw [mismatch, if_neg hEq]
        exact .more (.substitute [] a b s) (ih.cons b)

end Aligned

/- One edit is an alignment that costs one at most. -/
theorem Edit.aligned
    {s t : List α}
    (h : Edit s t) :
    ∃ k ≤ 1, Aligned k s t := by
  cases h with
  | insert front x rest =>
      exact ⟨1, le_rfl,
        ((Aligned.refl rest).insert x).append_left front⟩
  | delete front x rest =>
      exact ⟨1, le_rfl,
        ((Aligned.refl rest).delete x).append_left front⟩
  | substitute front x y rest =>
      have hLe := mismatch_le_one x y
      exact ⟨0 + mismatch x y, by omega,
        ((Aligned.refl rest).both x y).append_left front⟩

/- Alignments are as good as edits. -/
theorem aligned_le_of_edits
    {n : Nat}
    {s t : List α}
    (h : Edits n s t) :
    ∃ k ≤ n, Aligned k s t := by
  induction h with
  | done s => exact ⟨0, le_rfl, Aligned.refl s⟩
  | more hEdit _ ih =>
      rcases hEdit.aligned with ⟨k, hOne, hFirst⟩
      rcases ih with ⟨m, hRest, hSecond⟩
      rcases hFirst.trans hSecond with ⟨j, hLe, hAligned⟩
      exact ⟨j, by omega, hAligned⟩

------------------------------------------------------------
-- Entries of the Table
------------------------------------------------------------

/- The least cost of an alignment. -/
def Cost
    (s t : List α)
    (n : Nat) : Prop :=
  IsLeast {m | Aligned m s t} n

/- The least cost is the least number of edits. -/
theorem Cost.isLeast_edits
    {s t : List α}
    {n : Nat}
    (h : Cost s t n) :
    IsLeast {m | Edits m s t} n := by
  refine ⟨h.1.edits, ?_⟩
  intro m hEdits
  rcases aligned_le_of_edits hEdits with ⟨k, hLe, hAligned⟩
  exact (h.2 hAligned).trans hLe

namespace Cost

theorem nil :
    Cost ([] : List α) [] 0 :=
  ⟨.nil, fun _ _ => Nat.zero_le _⟩

/- In the first row all elements are deleted. -/
theorem delete
    {s : List α}
    {n : Nat}
    (a : α)
    (h : Cost s [] n) :
    Cost (a :: s) [] (n + 1) := by
  refine ⟨h.1.delete a, ?_⟩
  intro m hAligned
  cases hAligned with
  | delete _ hRest => exact Nat.succ_le_succ (h.2 hRest)

/- In the first column all elements are inserted. -/
theorem insert
    {t : List α}
    {n : Nat}
    (b : α)
    (h : Cost [] t n) :
    Cost [] (b :: t) (n + 1) := by
  refine ⟨h.1.insert b, ?_⟩
  intro m hAligned
  cases hAligned with
  | insert _ hRest => exact Nat.succ_le_succ (h.2 hRest)

/-
  Every other entry is the least of three that follow from
  the entries above, to the left and up left.
-/
theorem next
    {s t : List α}
    {a b : α}
    {up left diagonal : Nat}
    (hUp : Cost (a :: s) t up)
    (hLeft : Cost s (b :: t) left)
    (hDiagonal : Cost s t diagonal) :
    Cost (a :: s) (b :: t)
      (min (min (up + 1) (left + 1))
        (diagonal + mismatch a b)) := by
  constructor
  · rcases min_choice (min (up + 1) (left + 1))
        (diagonal + mismatch a b) with hMin | hMin
    · rw [hMin]
      rcases min_choice (up + 1) (left + 1) with hMin | hMin
      · rw [hMin]
        exact hUp.1.insert b
      · rw [hMin]
        exact hLeft.1.delete a
    · rw [hMin]
      exact hDiagonal.1.both a b
  · intro m hAligned
    cases hAligned with
    | insert _ hRest =>
        have hLe := hUp.2 hRest
        omega
    | delete _ hRest =>
        have hLe := hLeft.2 hRest
        omega
    | both _ _ hRest =>
        have hLe := hDiagonal.2 hRest
        omega

end Cost

------------------------------------------------------------
-- Rows of the Table
------------------------------------------------------------

/-
  The entries of a row behind a prefix `p` of the first list,
  with `s` to come.  Prefixes are read backwards, so that the
  next element stands in front.
-/
inductive IsRow
    (t : List α) : (p s : List α) → List Nat → Prop where
  | nil
      (p : List α) :
      IsRow t p [] []
  | cons
      {p s : List α}
      {a : α}
      {n : Nat}
      {row : List Nat}
      (h : Cost (a :: p) t n)
      (hs : IsRow t (a :: p) s row) :
      IsRow t p (a :: s) (n :: row)

/- A full row: the entry of no element, then the others. -/
inductive IsTable
    (t s : List α) : List Nat → Prop where
  | row
      {first : Nat}
      {row : List Nat}
      (h : Cost [] t first)
      (hs : IsRow t [] s row) :
      IsTable t s (first :: row)

/- The entries of the first row are counted upwards. -/
theorem isRow_range
    {p : List α}
    (s : List α)
    {n : Nat}
    (h : Cost p [] n) :
    IsRow [] p s (List.range' (n + 1) s.length) := by
  induction s generalizing p n with
  | nil => exact .nil p
  | cons a s ih => exact .cons (h.delete a) (ih (h.delete a))

theorem isTable_range
    (s : List α) :
    IsTable [] s (List.range (s.length + 1)) := by
  rw [List.range_eq_range', List.range'_succ]
  exact .row Cost.nil (isRow_range s Cost.nil)

/- The next row is filled from left to right. -/
theorem IsRow.continueRow
    {t p s : List α}
    {above : List Nat}
    (b : α)
    (hAbove : IsRow t p s above) :
    ∀ {diagonal left : Nat},
      Cost p t diagonal →
        Cost p (b :: t) left →
          IsRow (b :: t) p s
            (continueRow b s above diagonal left) := by
  induction hAbove with
  | nil p =>
      intro _ _ _ _
      exact .nil p
  | cons hUp _ ih =>
      intro diagonal left hDiagonal hLeft
      have hEntry := hUp.next hLeft hDiagonal
      exact .cons hEntry (ih hUp hEntry)

/- Each row is made from the one above it. -/
theorem IsTable.nextRow
    {t s : List α}
    {above : List Nat}
    (b : α)
    (h : IsTable t s above) :
    IsTable (b :: t) s (nextRow s above b) := by
  cases h with
  | row hFirst hRest =>
      exact .row (hFirst.insert b)
        (hRest.continueRow b hFirst (hFirst.insert b))

/- The row behind all elements of a list. -/
theorem IsTable.foldl
    {t s : List α}
    {row : List Nat}
    (u : List α)
    (h : IsTable t s row) :
    IsTable (u.reverse ++ t) s
      (u.foldl (Spelling.nextRow s) row) := by
  induction u generalizing t row with
  | nil => exact h
  | cons b u ih =>
      rw [List.reverse_cons, List.append_assoc]
      exact ih (h.nextRow b)

/- The last entry of a row is that of the whole list. -/
theorem IsRow.getLast?
    {t p s : List α}
    {row : List Nat}
    (h : IsRow t p s row) :
    ∀ {first : Nat},
      Cost p t first →
        ∃ n, (first :: row).getLast? = some n ∧
          Cost (s.reverse ++ p) t n := by
  induction h with
  | nil p =>
      intro first hFirst
      exact ⟨first, rfl, hFirst⟩
  | @cons p s a n row hEntry _ ih =>
      intro first _
      rcases ih hEntry with ⟨m, hLast, hCost⟩
      refine ⟨m, ?_, ?_⟩
      · rw [List.getLast?_cons_cons]
        exact hLast
      · rw [List.reverse_cons, List.append_assoc]
        exact hCost

------------------------------------------------------------
-- The Distance
------------------------------------------------------------

/-
  The last entry is the least cost of the lists read
  backwards.
-/
theorem cost_distance
    (s t : List α) :
    Cost s.reverse t.reverse (distance s t) := by
  have hTable := (isTable_range s).foldl t
  rw [List.append_nil] at hTable
  unfold distance
  cases hRow :
      t.foldl (nextRow s) (List.range (s.length + 1)) with
  | nil =>
      rw [hRow] at hTable
      cases hTable
  | cons first row =>
      rw [hRow] at hTable
      cases hTable with
      | row hFirst hRest =>
          rcases hRest.getLast? hFirst with ⟨n, hLast, hCost⟩
          rw [hLast]
          simpa using hCost

/- The distance is the least number of edits. -/
theorem isLeast_distance
    (s t : List α) :
    IsLeast {n | Edits n s t} (distance s t) := by
  have hLeast := (cost_distance s t).isLeast_edits
  simpa only [edits_reverse_iff] using hLeast

end Spelling

end Namesake
