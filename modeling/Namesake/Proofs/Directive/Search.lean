import Namesake.Directive

/-
  What a search through a doc comment finds.  Nothing is
  found exactly if no line starts the directive, and a
  directive that is found is one run of lines outside of
  which no line starts it.

  Main declarations:
    * `Directive.starts`
    * `Directive.find_eq_none_iff`
    * `Directive.Occupies`
    * `Directive.exists_occupies_of_find`
    * `Directive.exists_duplicate_of_find`
-/

namespace Namesake

/- Lines of text as a doc comment without positions. -/
def DocLine.unplaced
    (lines : List Bytes) : List DocLine :=
  lines.map fun text => { text }

namespace Directive

------------------------------------------------------------
-- Lines That Start a Directive
------------------------------------------------------------

/- Does a line of text start the named directive? -/
def starts
    (name text : Bytes) : Bool :=
  (matchLine? name { text }).isSome

/- Whether a line starts a directive depends on its text alone. -/
theorem isSome_matchLine?
    (name : Bytes)
    (line : DocLine) :
    (matchLine? name line).isSome = starts name line.text := by
  unfold starts matchLine? DocLine.body?
  simp only
  cases slashes.isPrefixOf? line.text with
  | none => rfl
  | some body =>
      simp only
      cases List.isPrefixOf? (0x40 :: name)
          (body.dropWhile isMargin) with
      | none => rfl
      | some rest =>
          simp only
          cases Bytes.firstCode? rest with
          | none => rfl
          | some n =>
              simp only
              split <;> rfl

theorem matchLine?_eq_none_iff
    (name : Bytes)
    (line : DocLine) :
    matchLine? name line = none ↔
      starts name line.text = false := by
  rw [← isSome_matchLine?, Option.isSome_eq_false_iff,
    Option.isNone_iff_eq_none]

------------------------------------------------------------
-- Steps of a Search
------------------------------------------------------------

theorem scanLine_of_not_starts
    {name : Bytes}
    {s : Search}
    {line : DocLine}
    (h : starts name line.text = false) :
    scanLine name s line = .ok s := by
  simp [scanLine, (matchLine?_eq_none_iff name line).mpr h]

/- A second start is an error. -/
theorem scanLine_found
    {name : Bytes}
    {d : Directive}
    {s : Search}
    {line : DocLine}
    (h : scanLine name (.found d) line = .ok s) :
    starts name line.text = false ∧ s = .found d := by
  unfold scanLine at h
  cases hMatch : matchLine? name line with
  | none =>
      simp only [hMatch, Except.ok.injEq] at h
      exact ⟨(matchLine?_eq_none_iff name line).mp hMatch,
        h.symm⟩
  | some r => simp [hMatch, Search.directive?] at h

/-
  How a directive lies in a doc comment: its lines are `run`,
  the first of them starts it, and no line before or after
  does.
-/
structure Occupies
    (name : Bytes)
    (d : Directive)
    (before run after : List DocLine) : Prop where
  comments : d.comments = run.map DocLine.text
  first :
    ∃ line rest,
      run = line :: rest ∧ starts name line.text = true
  before : ∀ line ∈ before, starts name line.text = false
  after : ∀ line ∈ after, starts name line.text = false

/- What the lines taken so far are, for each state. -/
inductive Search.Takes
    (name : Bytes) : List DocLine → Search → Prop where
  | searching
      {seen : List DocLine}
      (hNone : ∀ line ∈ seen, starts name line.text = false) :
      Takes name seen .searching
  | reading
      {before run : List DocLine}
      {d : Directive}
      (hRun : Occupies name d before run []) :
      Takes name (before ++ run) (.reading d)
  | found
      {before run after : List DocLine}
      {d : Directive}
      (hRun : Occupies name d before run after) :
      Takes name (before ++ run ++ after) (.found d)

/- Looking at a line after a directive keeps it found. -/
private theorem Search.Takes.scanLine
    {name : Bytes}
    {before run after : List DocLine}
    {d : Directive}
    {s : Search}
    {line : DocLine}
    (hRun : Occupies name d before run after)
    (hScan : scanLine name (.found d) line = .ok s) :
    Takes name (before ++ run ++ after ++ [line]) s := by
  rcases scanLine_found hScan with ⟨hNot, rfl⟩
  rw [List.append_assoc]
  apply Search.Takes.found
  refine ⟨hRun.comments, hRun.first, hRun.before, ?_⟩
  intro other hOther
  rcases List.mem_append.mp hOther with hOld | hNew
  · exact hRun.after other hOld
  · rw [List.mem_singleton.mp hNew]
    exact hNot

/- Each line keeps what the lines before it are. -/
theorem Search.Takes.step
    {name : Bytes}
    {seen : List DocLine}
    {s s' : Search}
    {line : DocLine}
    (hTakes : Takes name seen s)
    (hStep : searchLine name s line = .ok s') :
    Takes name (seen ++ [line]) s' := by
  cases hTakes with
  | searching hNone =>
      simp only [searchLine, Directive.scanLine] at hStep
      cases hMatch : matchLine? name line with
      | none =>
          simp only [hMatch, Except.ok.injEq] at hStep
          subst hStep
          apply Search.Takes.searching
          intro other hOther
          rcases List.mem_append.mp hOther with hOld | hNew
          · exact hNone other hOld
          · rw [List.mem_singleton.mp hNew]
            exact (matchLine?_eq_none_iff name line).mp hMatch
      | some r =>
          rcases r with ⟨rest, position⟩
          simp only [hMatch, Search.directive?,
            Except.ok.injEq] at hStep
          subst hStep
          apply Search.Takes.reading
          have hStarts : starts name line.text = true := by
            rw [← isSome_matchLine?, hMatch]
            rfl
          exact ⟨rfl, ⟨line, [], rfl, hStarts⟩, hNone, by simp⟩
  | reading hRun =>
      rename_i before run d
      have hClosed
          (hScan :
            Directive.scanLine name (.found d) line = .ok s') :
          Takes name (before ++ run ++ [line]) s' := by
        have hNext := Search.Takes.scanLine hRun hScan
        simpa using hNext
      simp only [searchLine] at hStep
      split at hStep
      · split at hStep
        · -- an open directive takes any further line comment
          rename_i body hBody
          simp only [Except.ok.injEq] at hStep
          subst hStep
          rw [List.append_assoc]
          apply Search.Takes.reading
          rcases hRun.first with ⟨first, rest, hFirst, hStarts⟩
          refine ⟨?_, ⟨first, rest ++ [line], ?_, hStarts⟩,
            hRun.before, by simp⟩
          · simp [extend, hRun.comments]
          · rw [hFirst]
            rfl
        · exact hClosed hStep
      · exact hClosed hStep
  | found hRun =>
      exact Search.Takes.scanLine hRun hStep

/- What a whole search keeps. -/
theorem Search.Takes.run
    {name : Bytes}
    {seen doc : List DocLine}
    {s s' : Search}
    (hTakes : Takes name seen s)
    (hSearch : search name s doc = .ok s') :
    Takes name (seen ++ doc) s' := by
  induction doc generalizing seen s with
  | nil =>
      simp only [search, Except.ok.injEq] at hSearch
      subst hSearch
      simpa using hTakes
  | cons line doc ih =>
      unfold search at hSearch
      split at hSearch
      · rename_i next hStep
        have hRest := ih (hTakes.step hStep) hSearch
        simpa using hRest
      · cases hSearch

------------------------------------------------------------
-- Results of a Search
------------------------------------------------------------

/- Lines that start nothing do not matter between directives. -/
theorem search_of_not_starts
    {name : Bytes}
    {s : Search}
    {doc : List DocLine}
    (hState : ∀ d, s ≠ .reading d)
    (h : ∀ line ∈ doc, starts name line.text = false) :
    search name s doc = .ok s := by
  induction doc with
  | nil => rfl
  | cons line doc ih =>
      rw [List.forall_mem_cons] at h
      have hScan :
          searchLine name s line = scanLine name s line := by
        cases s with
        | searching => rfl
        | reading d => exact absurd rfl (hState d)
        | found d => rfl
      have hStep : searchLine name s line = .ok s :=
        hScan.trans (scanLine_of_not_starts h.1)
      unfold search
      rw [hStep]
      exact ih h.2

/- A search goes on where it was after the first lines. -/
theorem search_append_of_ok
    {name : Bytes}
    {s s' : Search}
    {doc : List DocLine}
    (rest : List DocLine)
    (h : search name s doc = .ok s') :
    search name s (doc ++ rest) = search name s' rest := by
  induction doc generalizing s with
  | nil =>
      cases h
      rfl
  | cons line doc ih =>
      unfold search at h
      rw [List.cons_append, search]
      cases hStep : searchLine name s line with
      | ok next =>
          rw [hStep] at h
          exact ih h
      | error e =>
          rw [hStep] at h
          cases h

/- A search that goes through has gone through the first lines. -/
theorem exists_of_search_append
    {name : Bytes}
    {s s' : Search}
    {doc rest : List DocLine}
    (h : search name s (doc ++ rest) = .ok s') :
    ∃ mid,
      search name s doc = .ok mid ∧
        search name mid rest = .ok s' := by
  induction doc generalizing s with
  | nil => exact ⟨s, rfl, h⟩
  | cons line doc ih =>
      rw [List.cons_append, search] at h
      rw [search]
      cases hStep : searchLine name s line with
      | ok next =>
          rw [hStep] at h
          exact ih h
      | error e =>
          rw [hStep] at h
          cases h

/- A closed directive stays if nothing starts behind it. -/
theorem exists_search_of_closed
    {name : Bytes}
    {d : Directive}
    {lines : List DocLine}
    (hClosed : depth d.arguments ≤ 0)
    (hAfter : ∀ line ∈ lines, starts name line.text = false) :
    ∃ s,
      search name (.reading d) lines = .ok s ∧
        s.directive? = some d := by
  cases lines with
  | nil => exact ⟨.reading d, rfl, rfl⟩
  | cons line lines =>
      rw [List.forall_mem_cons] at hAfter
      have hStep :
          searchLine name (.reading d) line =
            .ok (.found d) := by
        simp only [searchLine, if_neg (Int.not_lt.mpr hClosed)]
        exact scanLine_of_not_starts hAfter.1
      refine ⟨.found d, ?_, rfl⟩
      rw [search, hStep]
      exact search_of_not_starts (by simp) hAfter.2

/- Lines in front that start nothing do not matter. -/
theorem find_append_of_not_starts
    {name : Bytes}
    {front : List DocLine}
    (hFront : ∀ line ∈ front, starts name line.text = false)
    (doc : List DocLine) :
    find name (front ++ doc) = find name doc := by
  have hSearch : search name .searching front = .ok .searching :=
    search_of_not_starts (by simp) hFront
  unfold find
  rw [search_append_of_ok doc hSearch]

/- The lines of a doc comment, as the end of a search has them. -/
private theorem takes_of_find
    {name : Bytes}
    {doc : List DocLine}
    {result : Option Directive}
    (hFind : find name doc = .ok result) :
    ∃ s : Search,
      s.directive? = result ∧ Search.Takes name doc s := by
  unfold find at hFind
  split at hFind
  · rename_i s hSearch
    simp only [Except.ok.injEq] at hFind
    have hStart : Search.Takes name [] .searching :=
      Search.Takes.searching (by simp)
    exact ⟨s, hFind, hStart.run hSearch⟩
  · cases hFind

/- Nothing is found exactly if no line starts the directive. -/
theorem find_eq_none_iff
    (name : Bytes)
    (doc : List DocLine) :
    find name doc = .ok none ↔
      ∀ line ∈ doc, starts name line.text = false := by
  constructor
  · intro hFind
    rcases takes_of_find hFind with ⟨s, hResult, hTakes⟩
    cases hTakes with
    | searching hNone => exact hNone
    | reading => simp [Search.directive?] at hResult
    | found => simp [Search.directive?] at hResult
  · intro hNone
    unfold find
    rw [search_of_not_starts (by simp) hNone]
    rfl

/- A directive that is found is one run of lines. -/
theorem exists_occupies_of_find
    {name : Bytes}
    {doc : List DocLine}
    {d : Directive}
    (hFind : find name doc = .ok (some d)) :
    ∃ before run after,
      doc = before ++ run ++ after ∧
        Occupies name d before run after := by
  rcases takes_of_find hFind with ⟨s, hResult, hTakes⟩
  cases hTakes with
  | searching => simp [Search.directive?] at hResult
  | reading hRun =>
      rename_i before run d'
      have hSame : d' = d := by
        simpa [Search.directive?] using hResult
      subst hSame
      exact ⟨before, run, [], by simp, hRun⟩
  | found hRun =>
      rename_i before run after d'
      have hSame : d' = d := by
        simpa [Search.directive?] using hResult
      subst hSame
      exact ⟨before, run, after, rfl, hRun⟩

/- The same for lines without positions. -/
theorem find_unplaced_eq_none_iff
    (name : Bytes)
    (lines : List Bytes) :
    find name (DocLine.unplaced lines) = .ok none ↔
      ∀ text ∈ lines, starts name text = false := by
  rw [find_eq_none_iff]
  simp [DocLine.unplaced]

------------------------------------------------------------
-- Errors of a Search
------------------------------------------------------------

private theorem exists_duplicate_of_scanLine
    {name : Bytes}
    {s : Search}
    {line : DocLine}
    {e : Diagnostic}
    (h : scanLine name s line = .error e) :
    ∃ first, e = duplicate first line := by
  unfold scanLine at h
  split at h
  · cases h
  · split at h
    · rename_i first _
      exact ⟨first, (Except.error.inj h).symm⟩
    · cases h

/- A line fails only as a second start. -/
private theorem exists_duplicate_of_searchLine
    {name : Bytes}
    {s : Search}
    {line : DocLine}
    {e : Diagnostic}
    (h : searchLine name s line = .error e) :
    ∃ first, e = duplicate first line := by
  unfold searchLine at h
  split at h
  · split at h
    · split at h
      · cases h
      · exact exists_duplicate_of_scanLine h
    · exact exists_duplicate_of_scanLine h
  · exact exists_duplicate_of_scanLine h

private theorem exists_duplicate_of_search
    {name : Bytes}
    {s : Search}
    {doc : List DocLine}
    {e : Diagnostic}
    (h : search name s doc = .error e) :
    ∃ first, ∃ line ∈ doc, e = duplicate first line := by
  induction doc generalizing s with
  | nil => cases h
  | cons line doc ih =>
      unfold search at h
      split at h
      · rcases ih h with ⟨first, other, hMem, hEq⟩
        exact ⟨first, other, by simp [hMem], hEq⟩
      · rename_i hLine
        rw [Except.error.inj h] at hLine
        rcases exists_duplicate_of_searchLine hLine with
          ⟨first, hEq⟩
        exact ⟨first, line, by simp, hEq⟩

/- The only error of a search is a second directive. -/
theorem exists_duplicate_of_find
    {name : Bytes}
    {doc : List DocLine}
    {e : Diagnostic}
    (hFind : find name doc = .error e) :
    ∃ first, ∃ line ∈ doc, e = duplicate first line := by
  unfold find at hFind
  split at hFind
  · cases hFind
  · rename_i hSearch
    rw [Except.error.inj hFind] at hSearch
    exact exists_duplicate_of_search hSearch

end Directive

end Namesake
