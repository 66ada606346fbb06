import Namesake.Directive

/-
  Stretches of lines, joined with line feeds into one text.
  Each offset of the text has a place on a line; places keep
  the order of offsets, and names keep their bytes.

  Main declarations:
    * `DocLine.IsAt`
    * `Directive.Stretch` and `Directive.joined`
    * `Directive.locate`
    * `Directive.locate_lex`
    * `Directive.exists_stretch_of_isPrefix`
    * `Directive.exists_segmentAt`
-/

namespace Namesake

------------------------------------------------------------
-- Positions on a Line
------------------------------------------------------------

namespace DocLine

/- The position is that of byte `c` of the line. -/
structure IsAt
    (line : DocLine)
    (c : Nat)
    (p : Position) : Prop where
  sameFile : p.file = line.position.file
  sameLine : p.line = line.position.line
  offset : p.offset = line.position.offset + c
  column : p.column = line.position.column + c

/- A line is at the position of its first byte. -/
theorem isAt_zero
    (line : DocLine) :
    line.IsAt 0 line.position := by
  refine ⟨rfl, rfl, ?_, ?_⟩ <;> simp

/- Known positions move along their line. -/
theorem IsAt.shift
    {line : DocLine}
    {c c' : Nat}
    {p : Position}
    {n : Int}
    (hAt : line.IsAt c p)
    (hValid : line.position.isValid = true)
    (hMove : (c' : Int) = c + n) :
    line.IsAt c' (p.shift n) := by
  have hKnown : p.isValid = true := by
    unfold Position.isValid at hValid ⊢
    rw [hAt.sameLine]
    exact hValid
  unfold Position.shift
  rw [if_pos hKnown]
  refine ⟨hAt.sameFile, hAt.sameLine, ?_, ?_⟩
  · have hOffset := hAt.offset
    simp only
    omega
  · have hColumn := hAt.column
    simp only
    omega

end DocLine

namespace Directive

------------------------------------------------------------
-- Stretches
------------------------------------------------------------

/- What is left of a line behind its first bytes. -/
structure Stretch where
  line : DocLine
  skip : Nat
  skip_le : skip ≤ line.text.length

namespace Stretch

/- The bytes of a stretch. -/
def body
    (s : Stretch) : Bytes :=
  s.line.text.drop s.skip

/- The position of the first byte. -/
def start
    (s : Stretch) : Position :=
  s.line.position.shift s.skip

theorem skip_add_length_body
    (s : Stretch) :
    s.skip + s.body.length = s.line.text.length := by
  have hSkip := s.skip_le
  unfold body
  rw [List.length_drop]
  omega

/- The rest of a stretch is a rest of its line. -/
theorem drop_body
    (s : Stretch)
    (o : Nat) :
    s.body.drop o = s.line.text.drop (s.skip + o) := by
  unfold body
  rw [List.drop_drop]

/- The stretch of a line behind a known beginning. -/
def behind
    {line : DocLine}
    {front rest : Bytes}
    (h : line.text = front ++ rest) : Stretch :=
  { line := line
    skip := front.length
    skip_le := by
      rw [h, List.length_append]
      exact Nat.le_add_right _ _ }

@[simp] theorem line_behind
    {line : DocLine}
    {front rest : Bytes}
    (h : line.text = front ++ rest) :
    (behind h).line = line :=
  rfl

@[simp] theorem body_behind
    {line : DocLine}
    {front rest : Bytes}
    (h : line.text = front ++ rest) :
    (behind h).body = rest := by
  simp [body, behind, h]

end Stretch

/- Stretches one after another, each with a line feed behind it. -/
def joined
    (ss : List Stretch) : Bytes :=
  ss.flatMap fun s => s.body ++ [0x0a]

@[simp] theorem joined_nil :
    joined [] = [] :=
  rfl

@[simp] theorem joined_cons
    (s : Stretch)
    (ss : List Stretch) :
    joined (s :: ss) = s.body ++ 0x0a :: joined ss := by
  simp [joined]

@[simp] theorem joined_append
    (ss tt : List Stretch) :
    joined (ss ++ tt) = joined ss ++ joined tt := by
  simp [joined]

/- The segments of stretches whose text begins at an offset. -/
def segmentsFrom
    (n : Nat) : List Stretch → List Segment
  | [] => []
  | s :: ss =>
      ⟨n, s.start⟩ :: segmentsFrom (n + (s.body.length + 1)) ss

/- Later stretches begin behind the text of earlier ones. -/
theorem segmentsFrom_append
    (n : Nat)
    (ss tt : List Stretch) :
    segmentsFrom n (ss ++ tt) =
      segmentsFrom n ss ++
        segmentsFrom (n + (joined ss).length) tt := by
  induction ss generalizing n with
  | nil => rfl
  | cons s ss ih =>
      simp only [List.cons_append, segmentsFrom, ih,
        joined_cons, List.length_append, List.length_cons]
      congr 3
      omega

------------------------------------------------------------
-- Places
------------------------------------------------------------

/-
  The place of an offset of joined stretches: the number of
  the stretch and the byte of its line.  The line feed behind
  a stretch has the place of the line's end.
-/
def locate : List Stretch → Nat → Nat × Nat
  | [], o => (0, o)
  | s :: ss, o =>
      if o ≤ s.body.length then
        (0, s.skip + o)
      else
        let place := locate ss (o - (s.body.length + 1))
        (place.1 + 1, place.2)

/- An offset up to the line feed is on the first line. -/
theorem locate_of_le
    {s : Stretch}
    {o : Nat}
    (ss : List Stretch)
    (h : o ≤ s.body.length) :
    locate (s :: ss) o = (0, s.skip + o) := by
  unfold locate
  rw [if_pos h]

/-
  Behind the line feed the next line is counted from its
  start.
-/
theorem locate_later
    (s : Stretch)
    (ss : List Stretch)
    (o : Nat) :
    locate (s :: ss) (s.body.length + 1 + o) =
      ((locate ss o).1 + 1, (locate ss o).2) := by
  have hNot : ¬ s.body.length + 1 + o ≤ s.body.length := by
    omega
  unfold locate
  rw [if_neg hNot, Nat.add_sub_cancel_left]
  cases ss <;> rfl

/- An offset is in the first stretch or behind it. -/
theorem le_or_later
    (n o : Nat) :
    o ≤ n ∨ ∃ o', o = n + 1 + o' := by
  rcases Nat.lt_or_ge n o with hLess | hLe
  · exact Or.inr (Nat.exists_eq_add_of_le hLess)
  · exact Or.inl hLe

/- Stretches in front only shift the lines. -/
theorem locate_append
    (ss tt : List Stretch)
    (o : Nat) :
    locate (ss ++ tt) ((joined ss).length + o) =
      (ss.length + (locate tt o).1, (locate tt o).2) := by
  induction ss with
  | nil => simp [joined]
  | cons s ss ih =>
      have hOffset :
          (joined (s :: ss)).length + o =
            s.body.length + 1 + ((joined ss).length + o) := by
        simp only [joined_cons, List.length_append,
          List.length_cons]
        omega
      rw [hOffset, List.cons_append, locate_later, ih]
      simp only [List.length_cons, Prod.mk.injEq, and_true]
      omega

/- Places keep the order of offsets. -/
theorem locate_lex
    (ss : List Stretch)
    {o o' : Nat}
    (h : o < o') :
    Prod.Lex (· < ·) (· < ·) (locate ss o) (locate ss o') := by
  induction ss generalizing o o' with
  | nil => exact Prod.Lex.right 0 h
  | cons s ss ih =>
      rcases le_or_later s.body.length o with
        hHere | ⟨later, rfl⟩
      · rw [locate_of_le ss hHere]
        rcases le_or_later s.body.length o' with
          hHere' | ⟨later', rfl⟩
        · rw [locate_of_le ss hHere']
          exact Prod.Lex.right 0 (by omega)
        · rw [locate_later]
          exact Prod.Lex.left _ _ (Nat.succ_pos _)
      · rcases le_or_later s.body.length o' with
          hHere' | ⟨later', rfl⟩
        · omega
        · have hLater : later < later' := by omega
          have hLex := ih hLater
          rw [locate_later, locate_later]
          rw [Prod.lex_def] at hLex ⊢
          simp only
          omega

/- The place of an offset is on a line of a stretch. -/
theorem exists_stretch
    {ss : List Stretch}
    {o : Nat}
    (hInside : o < (joined ss).length) :
    ∃ s,
      ss[(locate ss o).1]? = some s ∧
        (locate ss o).2 ≤ s.line.text.length := by
  induction ss generalizing o with
  | nil => simp [joined] at hInside
  | cons s ss ih =>
      rcases le_or_later s.body.length o with
        hHere | ⟨later, rfl⟩
      · rw [locate_of_le ss hHere]
        refine ⟨s, rfl, ?_⟩
        have hLength := s.skip_add_length_body
        simp only
        omega
      · rw [joined_cons, List.length_append,
          List.length_cons] at hInside
        rw [locate_later]
        exact ih (by omega)

/- Nothing is placed on the skipped part of a line. -/
theorem skip_le_locate
    {ss : List Stretch}
    {o : Nat}
    {s : Stretch}
    (h : ss[(locate ss o).1]? = some s) :
    s.skip ≤ (locate ss o).2 := by
  induction ss generalizing o with
  | nil => cases h
  | cons first ss ih =>
      rcases le_or_later first.body.length o with
        hHere | ⟨later, rfl⟩
      · rw [locate_of_le ss hHere] at h ⊢
        cases h
        exact Nat.le_add_right _ _
      · rw [locate_later] at h ⊢
        exact ih h

/- Text without a line feed lies in one stretch. -/
theorem isPrefix_of_isPrefix_append
    {w left right : Bytes}
    (hPrefix : w <+: left ++ 0x0a :: right)
    (hLine : 0x0a ∉ w) :
    w <+: left := by
  rcases hPrefix with ⟨rest, hSplit⟩
  rcases List.append_eq_append_iff.mp hSplit with
    ⟨front, hLeft, _⟩ | ⟨front, hWord, hRest⟩
  · exact ⟨front, hLeft.symm⟩
  · cases front with
    | nil =>
        rw [List.append_nil] at hWord
        subst hWord
        exact List.prefix_rfl
    | cons b front =>
        rw [List.cons_append, List.cons.injEq] at hRest
        refine absurd ?_ hLine
        rw [hWord, hRest.1]
        simp

/- A name in the joined text is a name on a line. -/
theorem exists_stretch_of_isPrefix
    {ss : List Stretch}
    {o : Nat}
    {w : Bytes}
    (hInside : o < (joined ss).length)
    (hPrefix : w <+: (joined ss).drop o)
    (hLine : 0x0a ∉ w) :
    ∃ s,
      ss[(locate ss o).1]? = some s ∧
        w <+: s.line.text.drop (locate ss o).2 ∧
        locate ss (o + w.length) =
          ((locate ss o).1, (locate ss o).2 + w.length) := by
  induction ss generalizing o with
  | nil => simp [joined] at hInside
  | cons s ss ih =>
      rcases le_or_later s.body.length o with
        hHere | ⟨later, rfl⟩
      · rw [joined_cons, List.drop_append_of_le_length hHere]
          at hPrefix
        have hBody :=
          isPrefix_of_isPrefix_append hPrefix hLine
        have hLength := hBody.length_le
        rw [List.length_drop] at hLength
        rw [locate_of_le ss hHere,
          locate_of_le ss (by omega), Nat.add_assoc]
        rw [s.drop_body] at hBody
        exact ⟨s, rfl, hBody, rfl⟩
      · rw [joined_cons, List.length_append,
          List.length_cons] at hInside
        have hDrop :
            (joined (s :: ss)).drop (s.body.length + 1 + later) =
              (joined ss).drop later := by
          rw [joined_cons, Nat.add_assoc, ← List.drop_drop,
            List.drop_left, Nat.add_comm, List.drop_succ_cons]
        rw [hDrop] at hPrefix
        rw [Nat.add_assoc _ later, locate_later, locate_later]
        rcases ih (by omega) hPrefix with
          ⟨s', hNth, hWord, hStop⟩
        rw [hStop]
        exact ⟨s', hNth, hWord, rfl⟩

------------------------------------------------------------
-- Segments
------------------------------------------------------------

/- Segments behind an offset do not count. -/
theorem segmentAt_segmentsFrom_of_lt
    {o n : Nat}
    (h : o < n)
    (current : Segment)
    (ss : List Stretch) :
    segmentAt o current (segmentsFrom n ss) = current := by
  cases ss with
  | nil => rfl
  | cons s ss =>
      unfold segmentsFrom segmentAt
      rw [if_pos h]

/- The segment of an offset is the stretch it is placed on. -/
theorem exists_segmentAt
    {ss : List Stretch}
    {o : Nat}
    (hInside : o < (joined ss).length)
    (n : Nat)
    (current : Segment) :
    ∃ s first,
      ss[(locate ss o).1]? = some s ∧
        segmentAt (n + o) current (segmentsFrom n ss) =
          ⟨n + first, s.start⟩ ∧
        s.skip + o = (locate ss o).2 + first := by
  induction ss generalizing o n current with
  | nil => simp [joined] at hInside
  | cons s ss ih =>
      have hFirst : ¬ n > n + o := by omega
      unfold segmentsFrom segmentAt
      rw [if_neg hFirst]
      rcases le_or_later s.body.length o with
        hHere | ⟨later, rfl⟩
      · rw [locate_of_le ss hHere,
          segmentAt_segmentsFrom_of_lt (by omega)]
        exact ⟨s, 0, rfl, rfl, rfl⟩
      · rw [joined_cons, List.length_append,
          List.length_cons] at hInside
        have hOffset :
            n + (s.body.length + 1 + later) =
              n + (s.body.length + 1) + later := by
          omega
        rw [locate_later, hOffset]
        rcases ih (o := later) (by omega) (n + (s.body.length + 1))
            ⟨n, s.start⟩ with
          ⟨s', first, hNth, hSegment, hPlace⟩
        refine ⟨s', s.body.length + 1 + first, hNth, ?_, ?_⟩
        · rw [hSegment, Nat.add_assoc]
        · simp only
          omega

end Directive

end Namesake
