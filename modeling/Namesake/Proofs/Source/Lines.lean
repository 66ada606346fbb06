import Namesake.Source.Lines

/-
  Positions along a line.  Between two offsets where no line
  starts and no mark takes effect, file and line stay the same
  and a column that is known grows with the offset.  Moving a
  position by hand gives the same only if it is known and if
  no byte is left out.

  Main declarations:
    * `Source.Lines.knowsColumn`
    * `Source.Lines.position_along`
    * `Source.Lines.shift_position_eq_iff`
-/

namespace Namesake

namespace Source

namespace Lines

------------------------------------------------------------
-- Line Starts and Marks
------------------------------------------------------------

/- A line starts behind a line end. -/
theorem lineEnd_of_mem_startsFrom
    {k x : Nat}
    {s : Bytes}
    (h : x ∈ startsFrom k s) :
    k < x ∧ s[x - (k + 1)]? = some 0x0a := by
  fun_induction startsFrom k s with
  | case1 => cases h
  | case2 => cases h
  | case3 k s _ ih =>
      rcases List.mem_cons.mp h with rfl | h
      · simp
      · rcases ih h with ⟨hLess, hByte⟩
        refine ⟨by omega, ?_⟩
        have hIndex : x - (k + 1) = x - (k + 1 + 1) + 1 := by
          omega
        rw [hIndex, List.getElem?_cons_succ]
        exact hByte
  | case4 k b s _ hNot ih =>
      rcases ih h with ⟨hLess, hByte⟩
      refine ⟨by omega, ?_⟩
      have hIndex : x - (k + 1) = x - (k + 1 + 1) + 1 := by
        omega
      rw [hIndex, List.getElem?_cons_succ]
      exact hByte

theorem bare_addMarks
    (f : Lines)
    (tokens : List Scanner.Lexed) :
    (f.addMarks tokens).bare = f.bare := by
  have hMark
      (f : Lines)
      (at₀ : Nat)
      (m : LineMark) :
      (f.addMark at₀ m).bare = f.bare := by
    unfold addMark
    simp only [apply_ite bare]
    exact ite_self _
  unfold addMarks
  induction tokens generalizing f with
  | nil => rfl
  | cons t tokens ih =>
      simp only [List.foldl_cons]
      rw [ih]
      split
      · exact hMark _ _ _
      · rfl

/- Under every name a text has the same lines. -/
theorem bare_ofText
    (name other src : Bytes)
    (tokens : List Scanner.Lexed) :
    (ofText name src tokens).bare =
      (ofText other src tokens).bare := by
  unfold ofText
  rw [bare_addMarks, bare_addMarks]
  rfl

/- Marks do not move the starts of lines. -/
theorem starts_ofText
    (name src : Bytes)
    (tokens : List Scanner.Lexed) :
    (ofText name src tokens).starts = 0 :: startsFrom 0 src :=
  congrArg Lines.starts (bare_addMarks _ tokens)

/- The name of a text does not matter for its lines. -/
theorem lineOf_ofText
    (name other src : Bytes)
    (tokens : List Scanner.Lexed)
    (offset : Nat) :
    (ofText name src tokens).lineOf offset =
      (ofText other src tokens).lineOf offset := by
  unfold lineOf
  rw [starts_ofText, starts_ofText]

/- A line mark is kept at its own offset, or not at all. -/
theorem marks_addMark
    (f : Lines)
    (at₀ : Nat)
    (l : LineMark) :
    (f.addMark at₀ l).marks = f.marks ∨
      ∃ m,
        (f.addMark at₀ l).marks = m :: f.marks ∧
          m.offset = l.offset := by
  unfold addMark
  simp only
  generalize (decide (l.offset < f.size) && _) = fits
  cases fits with
  | true => exact Or.inr ⟨_, rfl, rfl⟩
  | false => exact Or.inl rfl

/- The marks of lines are those of the tokens. -/
theorem exists_token_of_mem_addMarks
    {f : Lines}
    {tokens : List Scanner.Lexed}
    {m : NamedMark}
    (h : m ∈ (f.addMarks tokens).marks) :
    m ∈ f.marks ∨
      ∃ t ∈ tokens, ∃ l, t.mark = some l ∧ l.offset = m.offset := by
  unfold addMarks at h
  induction tokens generalizing f with
  | nil => exact Or.inl h
  | cons t tokens ih =>
      rw [List.foldl_cons] at h
      rcases ih h with h | ⟨u, hMem, hMark⟩
      · split at h
        · rename_i l hMark
          rcases marks_addMark f (t.token.offset + 7) l with
            hSame | ⟨m', hNew, hOffset⟩
          · rw [hSame] at h
            exact Or.inl h
          · rw [hNew] at h
            rcases List.mem_cons.mp h with rfl | h
            · exact Or.inr
                ⟨t, List.mem_cons_self, l, hMark, hOffset.symm⟩
            · exact Or.inl h
        · exact Or.inl h
      · exact Or.inr ⟨u, List.mem_cons_of_mem t hMem, hMark⟩

/- Offsets further on are not on earlier lines. -/
theorem lineOf_mono
    (f : Lines)
    {a b : Nat}
    (h : a ≤ b) :
    f.lineOf a ≤ f.lineOf b := by
  unfold lineOf locate
  simp only
  generalize f.starts = starts
  induction starts with
  | nil => exact Nat.le_refl 0
  | cons x starts ih =>
      by_cases hStart : x ≤ a
      · simpa [hStart, Nat.le_trans hStart h] using ih
      · simp [hStart]

------------------------------------------------------------
-- Moving Along
------------------------------------------------------------

/- Is the column of an offset known? -/
def knowsColumn
    (f : Lines)
    (offset : Nat) : Bool :=
  match f.marks.find? (·.offset ≤ offset) with
  | none => true
  | some m => m.column != 0

/- Nothing changes between two offsets. -/
structure SameLine
    (f : Lines)
    (p o : Nat) : Prop where
  le : p ≤ o
  starts : ∀ x ∈ f.starts, x ≤ o → x ≤ p
  marks : ∀ m ∈ f.marks, m.offset ≤ o → m.offset ≤ p

/- On one line the same line is found. -/
theorem SameLine.locate_eq
    {f : Lines}
    {p o : Nat}
    (h : f.SameLine p o) :
    locate f.starts o = locate f.starts p := by
  have hBefore :
      f.starts.takeWhile (· ≤ o) = f.starts.takeWhile (· ≤ p) := by
    have hLe := h.le
    have hStarts := h.starts
    generalize f.starts = starts at hStarts
    induction starts with
    | nil => rfl
    | cons x starts ih =>
        have hRest := ih fun y hMem =>
          hStarts y (List.mem_cons_of_mem x hMem)
        have hHead := hStarts x List.mem_cons_self
        by_cases hx : x ≤ p
        · simp [hx, Nat.le_trans hx hLe, hRest]
        · have hNot : ¬ x ≤ o := fun hLater => hx (hHead hLater)
          simp [hx, hNot]
  unfold locate
  rw [hBefore]

/- And so is the last mark before it. -/
theorem SameLine.find?_eq
    {f : Lines}
    {p o : Nat}
    (h : f.SameLine p o) :
    f.marks.find? (·.offset ≤ o) =
      f.marks.find? (·.offset ≤ p) := by
  have hLe := h.le
  have hMarks := h.marks
  generalize f.marks = marks at hMarks
  induction marks with
  | nil => rfl
  | cons m marks ih =>
      have hRest := ih fun y hMem =>
        hMarks y (List.mem_cons_of_mem m hMem)
      have hHead := hMarks m List.mem_cons_self
      by_cases hm : m.offset ≤ p
      · simp [hm, Nat.le_trans hm hLe]
      · have hNot : ¬ m.offset ≤ o :=
          fun hLater => hm (hHead hLater)
        simp [hm, hNot, hRest]

/- A line starts at or before its offsets. -/
theorem start_le
    (starts : List Nat)
    (offset : Nat) :
    (locate starts offset).2 ≤ offset := by
  unfold locate
  simp only
  cases hLast :
      (starts.takeWhile (· ≤ offset)).getLast? with
  | none => exact Nat.zero_le _
  | some x =>
      have hAll :=
        List.all_eq_true.mp List.all_takeWhile x
          (List.mem_of_getLast? hLast)
      simpa using hAll

/- The position of an offset later on the line. -/
theorem position_along
    {f : Lines}
    {p o : Nat}
    (h : f.SameLine p o) :
    f.position o =
      { f.position p with
        offset := o
        column :=
          if f.knowsColumn p then
            (f.position p).column + (Int.ofNat o - Int.ofNat p)
          else
            0 } := by
  have hLe := h.le
  have hLine : f.lineOf o = f.lineOf p := by
    rw [lineOf, lineOf, h.locate_eq]
  have hColumn :
      (f.columnOf o : Int) =
        f.columnOf p + (Int.ofNat o - Int.ofNat p) := by
    have hStart := start_le f.starts p
    simp only [columnOf, h.locate_eq, Int.ofNat_eq_natCast]
    omega
  unfold position knowsColumn
  rw [h.find?_eq, hLine]
  cases hMark : f.marks.find? (·.offset ≤ p) with
  | none =>
      simp only [if_true]
      rw [hColumn]
  | some m =>
      by_cases hZero : m.column = 0
      · simp [hZero]
      · simp only [hZero, bne_iff_ne, ne_eq, not_false_eq_true,
          if_true, if_false, hColumn, Position.mk.injEq,
          true_and]
        split
        · simp only [Int.ofNat_eq_natCast]
          omega
        · rfl

theorem SameLine.knowsColumn_eq
    {f : Lines}
    {p o : Nat}
    (h : f.SameLine p o) :
    f.knowsColumn o = f.knowsColumn p := by
  rw [knowsColumn, h.find?_eq, knowsColumn]

theorem SameLine.isValid_eq
    {f : Lines}
    {p o : Nat}
    (h : f.SameLine p o) :
    (f.position o).isValid = (f.position p).isValid := by
  rw [position_along h]
  rfl

/- An unknown column is written as zero. -/
theorem column_of_not_knows
    {f : Lines}
    {p : Nat}
    (h : f.knowsColumn p = false) :
    (f.position p).column = 0 := by
  unfold knowsColumn at h
  unfold position
  cases hMark : f.marks.find? (·.offset ≤ p) with
  | none =>
      rw [hMark] at h
      cases h
  | some m =>
      rw [hMark] at h
      have hZero : m.column = 0 := by
        simpa using h
      simp [hZero]

/- Marks change names and lines, never offsets. -/
theorem offset_position
    (f : Lines)
    (p : Nat) :
    (f.position p).offset = p := by
  unfold position
  cases f.marks.find? (·.offset ≤ p) <;> rfl

/- When a position that is moved by hand is that of an offset. -/
theorem shift_position_eq_iff
    {f : Lines}
    {p o n : Nat}
    (hSame : f.SameLine p o)
    (hMoves : 0 < n)
    (hFar : p + n ≤ o) :
    (f.position p).shift n = f.position o ↔
      (f.position o).isValid = true ∧
        f.knowsColumn o = true ∧ o = p + n := by
  have hOffset := offset_position f p
  rw [hSame.isValid_eq, hSame.knowsColumn_eq,
    position_along hSame]
  unfold Position.shift
  cases hValid : (f.position p).isValid with
  | false =>
      simp only [Bool.false_eq_true, if_false, false_and,
        iff_false]
      intro hEq
      have hOther := congrArg Position.offset hEq
      simp only [hOffset] at hOther
      omega
  | true =>
      cases hKnown : f.knowsColumn p with
      | false =>
          have hColumn := column_of_not_knows hKnown
          simp only [if_true, Bool.false_eq_true, if_false,
            false_and, and_false, iff_false]
          intro hEq
          have hOther := congrArg Position.column hEq
          simp only [hColumn] at hOther
          omega
      | true =>
          simp only [if_true, Position.mk.injEq, true_and,
            hOffset, Int.ofNat_eq_natCast]
          omega

end Lines

end Source

end Namesake
