import Mathlib.Data.List.TakeWhile
import Namesake.Proofs.Arguments.Placement
import Namesake.Proofs.Directive.Stretches

/-
  Where the parts of a directive stand.  Its argument text is
  cut from lines of a doc comment, and the positions of its
  aliases, of its errors and of the directive itself are
  those of the bytes they were cut from.

  Main declarations:
    * `Directive.IsCutFrom`
    * `Directive.searchLine_cases`
    * `Directive.exists_isCutFrom_of_find`
    * `Directive.IsCutFrom.position_eq`
    * `Directive.find_keeps_positions`
-/

namespace Namesake

/- Moves along a line add up. -/
theorem Position.shift_shift
    (p : Position)
    (m n : Int) :
    (p.shift m).shift n = p.shift (m + n) := by
  by_cases hValid : p.isValid = true
  · have hMoved :
        p.shift m =
          { p with
            offset := p.offset + m
            column := p.column + m } := by
      rw [shift, if_pos hValid]
    have hStill : (p.shift m).isValid = true := by
      rw [hMoved]
      exact hValid
    rw [shift, if_pos hStill, hMoved, shift, if_pos hValid,
      Int.add_assoc, Int.add_assoc]
  · simp [shift, hValid]

namespace Directive

------------------------------------------------------------
-- Directives
------------------------------------------------------------

/-
  The directive is cut from stretches of lines: the first one
  stands behind the name, and the line feeds between them
  belong to the argument text.
-/
structure IsCutFrom
    (name : Bytes)
    (d : Directive)
    (ss : List Stretch) : Prop where
  sameName : d.name = name
  comments : d.comments = ss.map fun s => s.line.text
  arguments : d.arguments ++ [0x0a] = joined ss
  segments : d.segments = segmentsFrom 0 ss
  slashed :
    ∀ s ∈ ss,
      slashes.length ≤ s.skip ∧
        ∃ body, s.line.body? = some body
  first :
    ∃ s rest margin,
      ss = s :: rest ∧
        s.line.text =
          slashes ++ margin ++ 0x40 :: (name ++ s.body) ∧
        ∀ b ∈ margin, isMargin b = true

/- How a line starts a directive. -/
theorem exists_margin_of_matchLine?
    {name rest : Bytes}
    {line : DocLine}
    {position : Position}
    (hMatch : matchLine? name line = some (rest, position)) :
    ∃ margin,
      line.text =
          slashes ++ margin ++ 0x40 :: (name ++ rest) ∧
        (∀ b ∈ margin, isMargin b = true) ∧
        position =
          line.position.shift
            (2 + margin.length + (1 + name.length)) := by
  unfold matchLine? at hMatch
  split at hMatch
  · cases hMatch
  · rename_i body hBody
    simp only at hMatch
    split at hMatch
    · cases hMatch
    · rename_i rest' hRest
      rw [Option.ite_none_left_eq_some, Option.some.injEq,
        Prod.mk.injEq] at hMatch
      rcases hMatch with ⟨_, rfl, hPosition⟩
      refine ⟨body.takeWhile isMargin, ?_, ?_, hPosition.symm⟩
      · have hText :=
          List.append_eq_of_isPrefixOf?_eq_some hBody
        have hName :=
          List.append_eq_of_isPrefixOf?_eq_some hRest
        have hMargin :
            body.takeWhile isMargin ++
                body.dropWhile isMargin = body :=
          List.takeWhile_append_dropWhile
        rw [← hName] at hMargin
        rw [← hText, List.append_assoc]
        exact congrArg (slashes ++ ·) hMargin.symm
      · intro b hMem
        exact List.mem_takeWhile_imp hMem

/- A stretch behind slashes is on a line comment. -/
theorem Stretch.slashed_behind
    {line : DocLine}
    {front rest : Bytes}
    (h : line.text = slashes ++ front ++ rest) :
    slashes.length ≤ (behind h).skip ∧
      ∃ body, (behind h).line.body? = some body := by
  constructor
  · have hSkip :
        (behind h).skip = slashes.length + front.length :=
      List.length_append
    rw [hSkip]
    exact Nat.le_add_right _ _
  · refine ⟨front ++ rest, ?_⟩
    rw [line_behind, DocLine.body?, h, List.append_assoc,
      List.isPrefixOf?_eq_some_iff_append_eq.mpr rfl]

theorem exists_isCutFrom_begin
    {name rest : Bytes}
    {line : DocLine}
    {position : Position}
    (hMatch : matchLine? name line = some (rest, position)) :
    ∃ s : Stretch,
      s.line = line ∧
        IsCutFrom name (begin name line rest position) [s] := by
  rcases exists_margin_of_matchLine? hMatch with
    ⟨margin, hText, hMargin, hPosition⟩
  have hFront :
      line.text =
        slashes ++ (margin ++ 0x40 :: name) ++ rest := by
    rw [hText]
    simp
  have hSkip :
      ((slashes ++ (margin ++ 0x40 :: name)).length : Int) =
        2 + margin.length + (1 + name.length) := by
    simp only [slashes, List.length_append, List.length_cons,
      List.length_nil]
    omega
  refine ⟨Stretch.behind hFront, rfl, ?_⟩
  refine ⟨rfl, rfl, ?_, ?_, ?_, _, [], margin, rfl, ?_, hMargin⟩
  · simp [begin, joined]
  · simp only [begin, segmentsFrom, Stretch.start]
    rw [hPosition, ← hSkip]
    rfl
  · intro s hMem
    rw [List.mem_singleton.mp hMem]
    exact Stretch.slashed_behind hFront
  · rw [Stretch.body_behind]
    exact hText

theorem IsCutFrom.exists_extend
    {name body : Bytes}
    {d : Directive}
    {ss : List Stretch}
    {line : DocLine}
    (hCut : IsCutFrom name d ss)
    (hLine : line.body? = some body) :
    ∃ s : Stretch,
      s.line = line ∧
        IsCutFrom name (d.extend line body) (ss ++ [s]) := by
  have hText : line.text = slashes ++ [] ++ body := by
    rw [List.append_nil]
    exact (List.append_eq_of_isPrefixOf?_eq_some hLine).symm
  have hLength :
      d.arguments.length + 1 = 0 + (joined ss).length := by
    rw [← hCut.arguments]
    simp
  refine ⟨Stretch.behind hText, rfl, hCut.sameName, ?_, ?_, ?_,
    ?_, ?_⟩
  · simp [extend, hCut.comments]
  · rw [joined_append, ← hCut.arguments]
    simp [extend, joined]
  · rw [segmentsFrom_append, ← hLength, ← hCut.segments]
    rfl
  · intro s hMem
    rcases List.mem_append.mp hMem with hFirst | hLast
    · exact hCut.slashed s hFirst
    · rw [List.mem_singleton.mp hLast]
      exact Stretch.slashed_behind hText
  · rcases hCut.first with ⟨first, rest, margin, hFirst, hOpen⟩
    refine ⟨first, rest ++ [Stretch.behind hText], margin, ?_,
      hOpen⟩
    rw [hFirst]
    rfl

------------------------------------------------------------
-- Searching
------------------------------------------------------------

/- A line is passed over, or it starts a directive. -/
theorem scanLine_cases
    {name : Bytes}
    {s s' : Search}
    {line : DocLine}
    (hScan : scanLine name s line = .ok s') :
    s' = s ∨
      ∃ rest position,
        matchLine? name line = some (rest, position) ∧
          s' = .reading (begin name line rest position) := by
  unfold scanLine at hScan
  split at hScan
  · exact Or.inl (Except.ok.inj hScan).symm
  · rename_i rest position hMatch
    split at hScan
    · cases hScan
    · exact Or.inr ⟨rest, position, hMatch,
        (Except.ok.inj hScan).symm⟩

/- What one step of a search does. -/
theorem searchLine_cases
    {name : Bytes}
    {s s' : Search}
    {line : DocLine}
    (hStep : searchLine name s line = .ok s') :
    (s'.directive? = s.directive? ∧ ∀ d, s' ≠ .reading d) ∨
      (∃ rest position,
        matchLine? name line = some (rest, position) ∧
          s' = .reading (begin name line rest position)) ∨
      ∃ d body,
        s = .reading d ∧ line.body? = some body ∧
          s' = .reading (d.extend line body) := by
  have hPassed
      {r : Search}
      (hSame : r.directive? = s.directive?)
      (hOpen : ∀ d, r ≠ .reading d)
      (hScan : scanLine name r line = .ok s') :
      (s'.directive? = s.directive? ∧ ∀ d, s' ≠ .reading d) ∨
        ∃ rest position,
          matchLine? name line = some (rest, position) ∧
            s' = .reading (begin name line rest position) := by
    rcases scanLine_cases hScan with rfl | hBegins
    · exact Or.inl ⟨hSame, hOpen⟩
    · exact Or.inr hBegins
  rw [← or_assoc]
  cases s with
  | searching =>
      exact Or.inl (hPassed rfl (by simp) hStep)
  | found d =>
      exact Or.inl (hPassed rfl (by simp) hStep)
  | reading d =>
      simp only [searchLine] at hStep
      split at hStep
      · split at hStep
        · rename_i body hBody
          exact Or.inr ⟨d, body, rfl, hBody,
            (Except.ok.inj hStep).symm⟩
        · exact Or.inl (hPassed (r := .found d) rfl (by simp) hStep)
      · exact Or.inl (hPassed (r := .found d) rfl (by simp) hStep)

/-
  The directive of a search is cut from lines that were
  taken, and an open one reaches to the last of them.
-/
def Search.IsCut
    (name : Bytes)
    (seen : List DocLine)
    (s : Search) : Prop :=
  ∀ d, s.directive? = some d →
    ∃ before ss after,
      seen = before ++ ss.map Stretch.line ++ after ∧
        IsCutFrom name d ss ∧
        (s = .reading d → after = [])

theorem Search.IsCut.step
    {name : Bytes}
    {seen : List DocLine}
    {s s' : Search}
    {line : DocLine}
    (hCut : IsCut name seen s)
    (hStep : searchLine name s line = .ok s') :
    IsCut name (seen ++ [line]) s' := by
  intro d hDirective
  rcases searchLine_cases hStep with
    ⟨hSame, hClosed⟩ | ⟨rest, position, hMatch, rfl⟩ |
      ⟨d', body, rfl, hBody, rfl⟩
  · rw [hSame] at hDirective
    rcases hCut d hDirective with
      ⟨before, ss, after, hSeen, hFrom, _⟩
    refine ⟨before, ss, after ++ [line], ?_, hFrom, ?_⟩
    · rw [hSeen]
      simp
    · intro hReading
      exact absurd hReading (hClosed d)
  · rcases exists_isCutFrom_begin hMatch with
      ⟨first, hLine, hFrom⟩
    rw [← Option.some.inj hDirective]
    refine ⟨seen, [first], [], ?_, hFrom, fun _ => rfl⟩
    simp [hLine]
  · rcases hCut d' rfl with
      ⟨before, ss, after, hSeen, hFrom, hOpen⟩
    rcases hFrom.exists_extend hBody with ⟨next, hLine, hNext⟩
    rw [← Option.some.inj hDirective]
    refine ⟨before, ss ++ [next], [], ?_, hNext, fun _ => rfl⟩
    rw [hSeen, hOpen rfl]
    simp [hLine]

theorem Search.IsCut.run
    {name : Bytes}
    {seen doc : List DocLine}
    {s s' : Search}
    (hCut : IsCut name seen s)
    (hSearch : search name s doc = .ok s') :
    IsCut name (seen ++ doc) s' := by
  induction doc generalizing seen s with
  | nil =>
      rw [List.append_nil, ← Except.ok.inj hSearch]
      exact hCut
  | cons line doc ih =>
      unfold search at hSearch
      split at hSearch
      · rename_i next hStep
        have hRest := ih (hCut.step hStep) hSearch
        rw [List.append_assoc] at hRest
        exact hRest
      · cases hSearch

/- A directive that is found is cut from consecutive lines. -/
theorem exists_isCutFrom_of_find
    {name : Bytes}
    {doc : List DocLine}
    {d : Directive}
    (hFind : find name doc = .ok (some d)) :
    ∃ before ss after,
      doc = before ++ ss.map Stretch.line ++ after ∧
        IsCutFrom name d ss := by
  unfold find at hFind
  split at hFind
  · rename_i s hSearch
    have hStart : Search.IsCut name [] .searching := by
      intro d hNone
      cases hNone
    rcases hStart.run hSearch d (Except.ok.inj hFind) with
      ⟨before, ss, after, hDoc, hFrom, _⟩
    exact ⟨before, ss, after, hDoc, hFrom⟩
  · cases hFind

------------------------------------------------------------
-- Positions of a Directive
------------------------------------------------------------

namespace IsCutFrom

variable {name : Bytes} {d : Directive} {ss : List Stretch}

theorem lt_length_joined
    {o : Nat}
    (hCut : IsCutFrom name d ss)
    (hInside : o ≤ d.arguments.length) :
    o < (joined ss).length := by
  rw [← hCut.arguments, List.length_append]
  exact Nat.lt_succ_of_le hInside

/- The position of an offset is that of its line, moved along. -/
theorem position_eq
    {o : Nat}
    {s : Stretch}
    (hCut : IsCutFrom name d ss)
    (hInside : o ≤ d.arguments.length)
    (hNth : ss[(locate ss o).1]? = some s) :
    d.position o = s.line.position.shift (locate ss o).2 := by
  rcases hCut.first with ⟨first, rest, _, hFirst, _⟩
  rcases exists_segmentAt (hCut.lt_length_joined hInside) 0
      ⟨0, first.start⟩ with
    ⟨s', n, hNth', hSegment, hPlace⟩
  rw [hNth, Option.some.injEq] at hNth'
  subst hNth'
  have hPosition :
      d.position o =
        s.start.shift (Int.ofNat o - Int.ofNat n) := by
    unfold position
    rw [hCut.segments]
    rw [hFirst] at hSegment ⊢
    simp only [segmentsFrom, segmentAt, Nat.zero_add,
      Nat.not_lt_zero, gt_iff_lt, if_false] at hSegment ⊢
    rw [hSegment]
  rw [hPosition, Stretch.start, Position.shift_shift]
  congr 1
  simp only [Int.ofNat_eq_natCast]
  omega

/- Offsets of the argument text have the positions of their places. -/
theorem isAt_position
    {o : Nat}
    {s : Stretch}
    (hCut : IsCutFrom name d ss)
    (hValid : ∀ s ∈ ss, s.line.position.isValid = true)
    (hInside : o ≤ d.arguments.length)
    (hNth : ss[(locate ss o).1]? = some s) :
    s.line.IsAt (locate ss o).2 (d.position o) := by
  have hLine := hValid s (List.mem_of_getElem? hNth)
  rw [hCut.position_eq hInside hNth]
  exact s.line.isAt_zero.shift hLine (by simp)

/- The start of a directive is counted to its at sign. -/
theorem start_eq
    (hCut : IsCutFrom name d ss) :
    ∃ line margin rest,
      (ss.map Stretch.line).head? = some line ∧
        line.text =
          slashes ++ margin ++ 0x40 :: (name ++ rest) ∧
        (∀ b ∈ margin, isMargin b = true) ∧
        d.span.start =
          line.position.shift (slashes ++ margin).length := by
  rcases hCut.first with
    ⟨s, rest, margin, rfl, hText, hMargin⟩
  have hPlace : locate (s :: rest) 0 = (0, s.skip + 0) :=
    locate_of_le rest (Nat.zero_le _)
  have hZero :=
    hCut.position_eq (o := 0) (s := s)
      (Nat.zero_le _) (by rw [hPlace]; rfl)
  rw [hPlace] at hZero
  refine ⟨s.line, margin, s.body, rfl, hText, hMargin, ?_⟩
  -- the name and its at sign end where the arguments begin
  have hMove :
      ((s.skip + 0 : Nat) : Int) + -Int.ofNat (name.length + 1) =
        (slashes ++ margin).length := by
    have hLength := congrArg List.length hText
    have hSkip := s.skip_add_length_body
    simp only [List.length_append, List.length_cons]
      at hLength ⊢
    rw [Int.ofNat_eq_natCast]
    omega
  rw [span, hZero, Position.shift_shift, hCut.sameName, hMove]

/- A directive starts at its at sign. -/
theorem isAt_start
    (hCut : IsCutFrom name d ss)
    (hValid : ∀ s ∈ ss, s.line.position.isValid = true) :
    ∃ line margin rest,
      (ss.map Stretch.line).head? = some line ∧
        line.text =
          slashes ++ margin ++ 0x40 :: (name ++ rest) ∧
        (∀ b ∈ margin, isMargin b = true) ∧
        line.IsAt (slashes ++ margin).length d.span.start := by
  rcases hCut.start_eq with
    ⟨line, margin, rest, hHead, hText, hMargin, hStart⟩
  rcases List.mem_map.mp (List.mem_of_mem_head? hHead) with
    ⟨s, hMem, rfl⟩
  refine ⟨s.line, margin, rest, hHead, hText, hMargin, ?_⟩
  rw [hStart]
  exact s.line.isAt_zero.shift (hValid s hMem) (by simp)

/- A directive stops at the end of its last line. -/
theorem isAt_stop
    (hCut : IsCutFrom name d ss)
    (hValid : ∀ s ∈ ss, s.line.position.isValid = true) :
    ∃ line,
      (ss.map Stretch.line).getLast? = some line ∧
        line.IsAt line.text.length d.span.stop := by
  rcases hCut.first with ⟨first, rest, _, hFirst, _⟩
  have hSome : ss ≠ [] := by
    rw [hFirst]
    simp
  rcases List.eq_nil_or_concat' ss with
    hNil | ⟨front, last, rfl⟩
  · exact absurd hNil hSome
  · have hOffset :
        d.arguments.length =
          (joined front).length + last.body.length := by
      have hLength := congrArg List.length hCut.arguments
      simp only [joined_append, joined_cons, joined_nil,
        List.length_append, List.length_cons,
        List.length_nil] at hLength
      omega
    have hPlace :
        locate (front ++ [last]) d.arguments.length =
          (front.length, last.line.text.length) := by
      rw [hOffset, locate_append,
        locate_of_le [] (Nat.le_refl _),
        last.skip_add_length_body]
      rfl
    have hAt :=
      hCut.isAt_position hValid (s := last) (Nat.le_refl _)
        (by rw [hPlace]; simp)
    rw [hPlace] at hAt
    exact ⟨last.line, by simp, hAt⟩

end IsCutFrom

end Directive

------------------------------------------------------------
-- Positions of Aliases and Errors
------------------------------------------------------------

/-
  The alias stands at a byte of a line of a doc comment: its
  name is read there, and its span is that of the name.
-/
def Alias.IsPlacedAt
    (doc : List DocLine)
    (a : Alias)
    (place : Nat × Nat) : Prop :=
  ∃ line,
    doc[place.1]? = some line ∧
      (line.text.drop place.2).take a.name.length = a.name ∧
      line.IsAt place.2 a.span.start ∧
      line.IsAt (place.2 + a.name.length) a.span.stop

/- An alias keeps its place when lines are put around. -/
theorem Alias.IsPlacedAt.append
    {run : List DocLine}
    {a : Alias}
    {place : Nat × Nat}
    (h : a.IsPlacedAt run place)
    (before after : List DocLine) :
    place.1 < run.length ∧
      a.IsPlacedAt (before ++ run ++ after)
        (before.length + place.1, place.2) := by
  rcases h with ⟨line, hNth, hHere⟩
  have hInside : place.1 < run.length :=
    (List.getElem?_eq_some_iff.mp hNth).1
  refine ⟨hInside, line, ?_, hHere⟩
  rw [List.append_assoc,
    List.getElem?_append_right (Nat.le_add_right _ _),
    Nat.add_sub_cancel_left, List.getElem?_append_left hInside]
  exact hNth

namespace Directive

open Arguments Scanner

namespace IsCutFrom

variable {name : Bytes} {d : Directive} {ss : List Stretch}

/- Entries are placed where their names stand. -/
theorem isPlacedAt_of_read
    {entries : List Entry}
    {e : Entry}
    (hCut : IsCutFrom name d ss)
    (hValid : ∀ s ∈ ss, s.line.position.isValid = true)
    (hRead : Arguments.read d.arguments = .ok entries)
    (hMem : e ∈ entries) :
    (Alias.ofEntry d.position e).IsPlacedAt
      (ss.map Stretch.line) (locate ss e.offset) := by
  have hStands := standsIn_of_read hRead hMem
  have hStop : e.offset + e.name.length ≤ d.arguments.length :=
    hStands.offset_add_length_le
  have hStart : e.offset ≤ d.arguments.length :=
    Nat.le_trans (Nat.le_add_right _ _) hStop
  have hPrefix : e.name <+: (joined ss).drop e.offset := by
    rw [← hCut.arguments, List.drop_append_of_le_length hStart]
    exact hStands.isPrefix.trans (List.prefix_append _ _)
  rcases exists_stretch_of_isPrefix
      (hCut.lt_length_joined hStart) hPrefix
      hStands.oneLine with
    ⟨s, hNth, hName, hPlace⟩
  have hAtStop :=
    hCut.isAt_position hValid (s := s) hStop
      (by rw [hPlace]; exact hNth)
  rw [hPlace] at hAtStop
  refine ⟨s.line, ?_, ?_, ?_, hAtStop⟩
  · rw [List.getElem?_map, hNth]
    rfl
  · exact (List.prefix_iff_eq_take.mp hName).symm
  · exact hCut.isAt_position hValid hStart hNth

/- Aliases stand on the lines, in the order of the text. -/
theorem exists_places
    {aliases : List Alias}
    (hCut : IsCutFrom name d ss)
    (hValid : ∀ s ∈ ss, s.line.position.isValid = true)
    (hAliases : d.aliases = .ok aliases) :
    ∃ places : List (Nat × Nat),
      List.Forall₂
          (Alias.IsPlacedAt (ss.map Stretch.line))
          aliases places ∧
        places.Pairwise (Prod.Lex (· < ·) (· < ·)) := by
  rcases Alias.parse_eq_ok_iff.mp hAliases with
    ⟨entries, hRead, rfl⟩
  refine ⟨entries.map fun e => locate ss e.offset, ?_, ?_⟩
  · rw [List.forall₂_map_left_iff, List.forall₂_map_right_iff,
      List.forall₂_same]
    intro e hMem
    exact hCut.isPlacedAt_of_read hValid hRead hMem
  · rw [List.pairwise_map]
    exact (pairwise_offset_of_read hRead).imp
      fun hLess => locate_lex ss hLess

/- An error stands on one of the lines. -/
theorem isAt_error
    {e : Diagnostic}
    (hCut : IsCutFrom name d ss)
    (hValid : ∀ s ∈ ss, s.line.position.isValid = true)
    (hAliases : d.aliases = .error e) :
    ∃ s ∈ ss,
      ∃ c ≤ s.line.text.length, s.line.IsAt c e.span.start := by
  unfold aliases Alias.parse at hAliases
  split at hAliases
  · cases hAliases
  · rename_i cause hRead
    cases hAliases
    have hInside := offset_le_of_read hRead
    rcases exists_stretch (hCut.lt_length_joined hInside) with
      ⟨s, hNth, hBound⟩
    exact ⟨s, List.mem_of_getElem? hNth, _, hBound,
      hCut.isAt_position hValid hInside hNth⟩

end IsCutFrom

/-
  Positions survive extraction.  The directive occupies a run
  of lines; it starts at the at sign and stops at the end of
  the last line.  Aliases stand where their names do, on
  lines of the run and in the order of the text, and an error
  is reported at a byte or at the end of such a line.
-/
theorem find_keeps_positions
    {name : Bytes}
    {doc : List DocLine}
    {d : Directive}
    (hValid : ∀ line ∈ doc, line.position.isValid = true)
    (hFind : find name doc = .ok (some d)) :
    ∃ before run after,
      doc = before ++ run ++ after ∧
        d.comments = run.map DocLine.text ∧
        (∃ line margin rest,
          run.head? = some line ∧
            line.text =
              slashes ++ margin ++ 0x40 :: (name ++ rest) ∧
            (∀ b ∈ margin, isMargin b = true) ∧
            line.IsAt (slashes ++ margin).length
              d.span.start) ∧
        (∃ line,
          run.getLast? = some line ∧
            line.IsAt line.text.length d.span.stop) ∧
        (∀ aliases,
          d.aliases = .ok aliases →
            ∃ places : List (Nat × Nat),
              List.Forall₂
                  (fun a place =>
                    before.length ≤ place.1 ∧
                      place.1 < before.length + run.length ∧
                      a.IsPlacedAt doc place)
                  aliases places ∧
                places.Pairwise
                  (Prod.Lex (· < ·) (· < ·))) ∧
        ∀ e,
          d.aliases = .error e →
            ∃ line ∈ run,
              ∃ c ≤ line.text.length,
                line.IsAt c e.span.start := by
  rcases exists_isCutFrom_of_find hFind with
    ⟨before, ss, after, hDoc, hCut⟩
  have hLines :
      ∀ s ∈ ss, s.line.position.isValid = true := by
    intro s hMem
    apply hValid
    rw [hDoc]
    simp only [List.mem_append, List.mem_map]
    exact Or.inl (Or.inr ⟨s, hMem, rfl⟩)
  refine ⟨before, ss.map Stretch.line, after, hDoc, ?_,
    hCut.isAt_start hLines, hCut.isAt_stop hLines, ?_, ?_⟩
  · rw [hCut.comments, List.map_map]
    rfl
  · intro aliases hAliases
    rcases hCut.exists_places hLines hAliases with
      ⟨places, hPlaced, hOrder⟩
    refine ⟨places.map fun place =>
      (before.length + place.1, place.2), ?_, ?_⟩
    · rw [List.forall₂_map_right_iff]
      refine hPlaced.imp ?_
      intro a place hHere
      rcases hHere.append before after with
        ⟨hInside, hPlace⟩
      rw [hDoc]
      exact ⟨Nat.le_add_right _ _,
        Nat.add_lt_add_left hInside _, hPlace⟩
    · rw [List.pairwise_map]
      refine hOrder.imp ?_
      intro place place' hLess
      rw [Prod.lex_def] at hLess ⊢
      simp only
      omega
  · intro e hAliases
    rcases hCut.isAt_error hLines hAliases with
      ⟨s, hMem, c, hBound, hAt⟩
    exact ⟨s.line, List.mem_map_of_mem hMem, c, hBound, hAt⟩

/- A directive on three lines, the second one without text. -/
def blockDoc : List DocLine :=
  [{ text := utf8 "// F."
     position := ⟨utf8 "a.go", 10, 2, 1⟩ },
    { text := utf8 "//\t@alias(É,"
      position := ⟨utf8 "a.go", 16, 3, 1⟩ },
    { text := utf8 "//"
      position := ⟨utf8 "a.go", 30, 4, 1⟩ },
    { text := utf8 "//B)"
      position := ⟨utf8 "a.go", 33, 5, 1⟩ }]

def blockDirective : Directive :=
  { name := utf8 "alias"
    comments := blockDoc.tail.map DocLine.text
    arguments := utf8 "(É,\n\nB)"
    segments :=
      [⟨0, ⟨utf8 "a.go", 25, 3, 10⟩⟩,
        ⟨5, ⟨utf8 "a.go", 32, 4, 3⟩⟩,
        ⟨6, ⟨utf8 "a.go", 35, 5, 3⟩⟩] }

theorem find_keeps_positions_of_block :
    find (utf8 "alias") blockDoc = .ok (some blockDirective) ∧
      ∃ aliases places,
        blockDirective.aliases = .ok aliases ∧
          Alias.names aliases = [utf8 "É", utf8 "B"] ∧
          List.Forall₂ (Alias.IsPlacedAt blockDoc)
            aliases places ∧
          places.Pairwise (Prod.Lex (· < ·) (· < ·)) := by
  have hValid :
      ∀ line ∈ blockDoc, line.position.isValid = true := by
    decide +kernel
  have hFind :
      find (utf8 "alias") blockDoc =
        .ok (some blockDirective) := by
    decide +kernel
  have hAliases :
      blockDirective.aliases =
        .ok
          [{ name := utf8 "É"
             span :=
               ⟨⟨utf8 "a.go", 26, 3, 11⟩,
                 ⟨utf8 "a.go", 28, 3, 13⟩⟩ },
            { name := utf8 "B"
              span :=
                ⟨⟨utf8 "a.go", 35, 5, 3⟩,
                  ⟨utf8 "a.go", 36, 5, 4⟩⟩ }] := by
    decide +kernel
  rcases find_keeps_positions hValid hFind with
    ⟨_, _, _, _, _, _, _, hPlaces, _⟩
  rcases hPlaces _ hAliases with ⟨places, hPlaced, hOrder⟩
  refine ⟨hFind, _, places, hAliases, rfl, ?_, hOrder⟩
  exact hPlaced.imp fun _ _ hHere => hHere.2.2

end Directive

end Namesake
