import Mathlib.Data.List.Induction
import Namesake.Proofs.Directive.Unplaced
import Namesake.Proofs.Settings.Identifier

/-
  Directives of different names.  No line starts two of them,
  although one name may be the beginning of the other, so that
  a line that starts one directive does not matter to another
  one unless it comes between the lines of that one.

  Main declarations:
    * `Directive.eq_of_matches`
    * `Directive.Occupies.unique`
    * `Directive.search_of_occupies`
    * `Directive.find_insert_front`
    * `Directive.find_insert_behind`
    * `Alias.SameRequest`
    * `Directive.find_ignores_other_names`
-/

namespace Namesake

------------------------------------------------------------
-- Names on One Line
------------------------------------------------------------

namespace Directive

/- What stands behind the blanks of a line with a directive. -/
theorem exists_body_of_matchLine?
    {name rest : Bytes}
    {line : DocLine}
    {position : Position}
    (hMatch : matchLine? name line = some (rest, position)) :
    ∃ body,
      line.body? = some body ∧
        body.dropWhile isMargin = 0x40 :: (name ++ rest) ∧
        Scanner.EndsName rest := by
  unfold matchLine? at hMatch
  split at hMatch
  · cases hMatch
  · rename_i body hBody
    simp only at hMatch
    split at hMatch
    · cases hMatch
    · rename_i rest' hRest
      rw [Option.ite_none_left_eq_some, Option.some.injEq,
        Prod.mk.injEq] at hMatch
      rcases hMatch with ⟨hEnd, rfl, _⟩
      refine ⟨body, hBody,
        (List.append_eq_of_isPrefixOf?_eq_some hRest).symm,
        ?_⟩
      intro n hFirst
      rw [hFirst] at hEnd
      exact Bool.not_eq_true _ ▸ hEnd

/- A line starts the directives of one identifier at most. -/
theorem eq_of_matches
    {name other : Bytes}
    {line : DocLine}
    {r r' : Bytes × Position}
    (hName : Settings.isIdentifier name = true)
    (hOther : Settings.isIdentifier other = true)
    (h : matchLine? name line = some r)
    (h' : matchLine? other line = some r') :
    name = other := by
  rcases exists_body_of_matchLine? h with
    ⟨body, hBody, hDrop, hEnd⟩
  rcases exists_body_of_matchLine? h' with
    ⟨body', hBody', hDrop', hEnd'⟩
  have hSame : body = body' :=
    Option.some.inj (hBody.symm.trans hBody')
  subst hSame
  apply Settings.eq_of_endsName hName hOther hEnd hEnd'
  exact (List.cons.inj (hDrop.symm.trans hDrop')).2

/- The line of one directive does not start another one. -/
theorem not_starts_of_starts
    {name other text : Bytes}
    (hName : Settings.isIdentifier name = true)
    (hOther : Settings.isIdentifier other = true)
    (hNe : name ≠ other)
    (hText : starts other text = true) :
    starts name text = false := by
  by_contra hStarts
  rw [Bool.not_eq_false] at hStarts
  rcases Option.isSome_iff_exists.mp hText with ⟨r', h'⟩
  rcases Option.isSome_iff_exists.mp hStarts with ⟨r, h⟩
  exact hNe (eq_of_matches hName hOther h h')

------------------------------------------------------------
-- The Place of a Directive
------------------------------------------------------------

/- A directive lies in one place of a doc comment only. -/
theorem Occupies.unique
    {name : Bytes}
    {d : Directive}
    {front run after rest front' run' after' rest' :
      List DocLine}
    (h : Occupies name d front run after)
    (h' : Occupies name d front' run' after')
    (hDoc : front ++ run ++ rest = front' ++ run' ++ rest') :
    front = front' ∧ run = run' := by
  have hTake
      {front run after : List DocLine}
      (h : Occupies name d front run after)
      (rest : List DocLine) :
      (front ++ run ++ rest).takeWhile
          (fun line => !starts name line.text) =
        front := by
    rcases h.first with ⟨line, lines, rfl, hStarts⟩
    have hFront :
        ∀ line ∈ front, (!starts name line.text) = true := by
      intro line hMem
      rw [h.before line hMem]
      rfl
    rw [List.append_assoc,
      List.takeWhile_append_of_pos hFront]
    simp [hStarts]
  have hFront : front = front' := by
    rw [← hTake h rest, hDoc, hTake h' rest']
  subst hFront
  have hLength : run.length = run'.length := by
    have hTexts := h.comments.symm.trans h'.comments
    simpa using congrArg List.length hTexts
  rw [List.append_assoc, List.append_assoc,
    List.append_cancel_left_eq] at hDoc
  exact ⟨rfl, (List.append_inj hDoc hLength).1⟩

/- What is found behind a line was read or found before it. -/
theorem directive?_of_searchLine
    {name : Bytes}
    {s : Search}
    {line : DocLine}
    {d : Directive}
    (h : searchLine name s line = .ok (.found d)) :
    s.directive? = some d := by
  cases s with
  | searching =>
      simp only [searchLine, scanLine] at h
      split at h
      · cases h
      · cases h
  | reading d' =>
      simp only [searchLine] at h
      split at h
      · split at h
        · cases h
        · cases (scanLine_found h).2
          rfl
      · cases (scanLine_found h).2
        rfl
  | found d' =>
      cases (scanLine_found h).2
      rfl

/- A directive that is found has been read up to some line. -/
theorem exists_reading_of_search
    {name : Bytes}
    {doc : List DocLine}
    {s : Search}
    {d : Directive}
    (hSearch : search name .searching doc = .ok s)
    (hFound : s.directive? = some d) :
    ∃ seen rest,
      doc = seen ++ rest ∧
        search name .searching seen = .ok (.reading d) := by
  induction doc using List.reverseRecOn generalizing s with
  | nil =>
      cases hSearch
      cases hFound
  | append_singleton doc line ih =>
      cases s with
      | searching => cases hFound
      | reading d' =>
          cases hFound
          exact ⟨doc ++ [line], [], by simp, hSearch⟩
      | found d' =>
          cases hFound
          rcases exists_of_search_append hSearch with
            ⟨mid, hMid, hLine⟩
          have hStep : searchLine name mid line = .ok (.found d) := by
            rw [search] at hLine
            cases hLast : searchLine name mid line with
            | ok s =>
                rw [hLast] at hLine
                exact hLine
            | error e =>
                rw [hLast] at hLine
                cases hLine
          rcases ih hMid (directive?_of_searchLine hStep) with
            ⟨seen, rest, rfl, hSeen⟩
          exact ⟨seen, rest ++ [line], by simp, hSeen⟩

/- The lines of a directive that is being read. -/
theorem Search.Takes.exists_occupies
    {name : Bytes}
    {seen : List DocLine}
    {d : Directive}
    (h : Takes name seen (.reading d)) :
    ∃ front run,
      seen = front ++ run ∧ Occupies name d front run [] := by
  cases h with
  | reading hRun => exact ⟨_, _, rfl, hRun⟩

/- Up to its last line, a directive that is found is read. -/
theorem search_of_occupies
    {name : Bytes}
    {d : Directive}
    {front run after : List DocLine}
    (hFind : find name (front ++ run ++ after) = .ok (some d))
    (hOccupies : Occupies name d front run after) :
    search name .searching (front ++ run) =
      .ok (.reading d) := by
  unfold find at hFind
  split at hFind
  · rename_i s hSearch
    rcases exists_reading_of_search hSearch
        (Except.ok.inj hFind) with
      ⟨seen, rest, hDoc, hSeen⟩
    have hStart : Search.Takes name [] .searching :=
      Search.Takes.searching (by simp)
    rcases (hStart.run hSeen).exists_occupies with
      ⟨front', run', hSplit, hOccupies'⟩
    rw [List.nil_append] at hSplit
    subst hSplit
    rcases hOccupies.unique hOccupies' hDoc with ⟨rfl, rfl⟩
    exact hSeen
  · cases hFind

------------------------------------------------------------
-- Lines Between Others
------------------------------------------------------------

/- A line in front of a directive changes nothing. -/
theorem find_insert_front
    {name : Bytes}
    {before : List DocLine}
    {line : DocLine}
    (hBefore : ∀ l ∈ before, starts name l.text = false)
    (hLine : starts name line.text = false)
    (after : List DocLine) :
    find name (before ++ line :: after) =
      find name (before ++ after) := by
  have hNone :
      ∀ l ∈ before ++ [line], starts name l.text = false := by
    simpa [or_imp, forall_and] using ⟨hBefore, hLine⟩
  have hInserted := find_append_of_not_starts hNone after
  rw [List.append_assoc, List.singleton_append] at hInserted
  rw [hInserted, find_append_of_not_starts hBefore]

/- A line behind a directive changes nothing if that is closed. -/
theorem find_insert_behind
    {name : Bytes}
    {d : Directive}
    {front run between after : List DocLine}
    {line : DocLine}
    (hLine : starts name line.text = false)
    (hFind :
      find name (front ++ run ++ (between ++ after)) =
        .ok (some d))
    (hClosed : depth d.arguments ≤ 0)
    (hOccupies :
      Occupies name d front run (between ++ after)) :
    find name (front ++ run ++ (between ++ line :: after)) =
      .ok (some d) := by
  have hNone :
      ∀ l ∈ between ++ line :: after,
        starts name l.text = false := by
    intro l hMem
    rw [List.mem_append, List.mem_cons] at hMem
    rcases hMem with hMem | rfl | hMem
    · exact hOccupies.after l (List.mem_append_left after hMem)
    · exact hLine
    · exact hOccupies.after l
        (List.mem_append_right between hMem)
  have hRead := search_of_occupies hFind hOccupies
  rcases exists_search_of_closed hClosed hNone with
    ⟨s, hRest, hFound⟩
  rw [find, search_append_of_ok _ hRead, hRest]
  exact congrArg Except.ok hFound

/-
  A line that does not start a directive may be put in front
  of it and, if the directive is closed, behind it.
-/
theorem find_insert
    {name : Bytes}
    {d : Directive}
    {before after front run back : List DocLine}
    {line : DocLine}
    (hLine : starts name line.text = false)
    (hFind : find name (before ++ after) = .ok (some d))
    (hClosed : depth d.arguments ≤ 0)
    (hDoc : before ++ after = front ++ run ++ back)
    (hOccupies : Occupies name d front run back)
    (hPlace :
      before.length ≤ front.length ∨
        (front ++ run).length ≤ before.length) :
    find name (before ++ line :: after) = .ok (some d) := by
  have hBefore : before <+: front ++ run ++ back := ⟨after, hDoc⟩
  have hRun : front ++ run <+: front ++ run ++ back :=
    List.prefix_append (front ++ run) back
  rcases hPlace with hPlace | hPlace
  · have hFront : front <+: front ++ run ++ back :=
      (List.prefix_append front run).trans hRun
    have hStart : before <+: front :=
      List.prefix_of_prefix_length_le hBefore hFront hPlace
    rw [find_insert_front _ hLine, hFind]
    intro l hMem
    exact hOccupies.before l (hStart.subset hMem)
  · rcases List.prefix_of_prefix_length_le hRun hBefore
        hPlace with
      ⟨between, rfl⟩
    rw [List.append_assoc, List.append_cancel_left_eq] at hDoc
    subst hDoc
    rw [List.append_assoc] at hFind ⊢
    exact find_insert_behind hLine hFind hClosed hOccupies

end Directive

------------------------------------------------------------
-- What Is Asked For
------------------------------------------------------------

/-
  Two answers to what a directive asks for that differ in
  their positions only: aliases with the same names and
  deprecations, or the same error.
-/
inductive Alias.SameRequest :
    Except Diagnostic (List Alias) →
      Except Diagnostic (List Alias) → Prop where
  | aliases
      {requested requested' : List Alias}
      (h :
        requested.map (fun a => (a.name, a.deprecation)) =
          requested'.map fun a => (a.name, a.deprecation)) :
      SameRequest (.ok requested) (.ok requested')
  | error
      {e e' : Diagnostic}
      (h : e = { e' with span := e.span }) :
      SameRequest (.error e) (.error e')

namespace Directive

/- The same text asks for the same wherever it stands. -/
theorem sameRequest_of_arguments
    {d d' : Directive}
    (h : d.arguments = d'.arguments) :
    Alias.SameRequest d.aliases d'.aliases := by
  unfold aliases Alias.parse
  rw [h]
  cases Arguments.read d'.arguments with
  | ok entries =>
      apply Alias.SameRequest.aliases
      rw [List.map_map, List.map_map]
      rfl
  | error e => exact .error rfl

/-
  No line starts the directives of two identifiers.  A line
  that starts another directive may be put anywhere but
  between the lines of a directive: nothing is found where
  nothing was found, and a directive that closes its
  parentheses is found with the same lines, and asks for the
  same.
-/
theorem find_ignores_other_names
    {name other : Bytes}
    (hName : Settings.isIdentifier name = true)
    (hOther : Settings.isIdentifier other = true)
    (hNe : name ≠ other) :
    (∀ line,
        matchLine? name line = none ∨
          matchLine? other line = none) ∧
      ∀ (before after doc : List DocLine) (text : Bytes),
        starts other text = true →
          doc.map DocLine.text =
            before.map DocLine.text ++
              text :: after.map DocLine.text →
          (find name (before ++ after) = .ok none →
            find name doc = .ok none) ∧
          ∀ d : Directive,
            find name (before ++ after) = .ok (some d) →
              depth d.arguments ≤ 0 →
              ∃ front run back,
                before ++ after = front ++ run ++ back ∧
                  Occupies name d front run back ∧
                  (before.length ≤ front.length ∨
                      (front ++ run).length ≤ before.length →
                    ∃ d',
                      find name doc = .ok (some d') ∧
                        d'.comments = d.comments ∧
                        Alias.SameRequest d'.aliases
                          d.aliases) := by
  constructor
  · intro line
    cases hMatch : matchLine? name line with
    | none => exact Or.inl rfl
    | some r =>
        right
        cases hMatch' : matchLine? other line with
        | none => rfl
        | some r' =>
            exact absurd
              (eq_of_matches hName hOther hMatch hMatch') hNe
  · intro before after doc text hText hDoc
    have hLine : starts name text = false :=
      not_starts_of_starts hName hOther hNe hText
    have hTexts :
        doc.map DocLine.text =
          (before ++ { text } :: after).map DocLine.text := by
      simpa using hDoc
    constructor
    · intro hNone
      have hBefore :
          ∀ l ∈ before, starts name l.text = false := by
        intro l hMem
        exact (find_eq_none_iff name _).mp hNone l
          (List.mem_append_left after hMem)
      have hInserted :
          find name (before ++ { text } :: after) = .ok none := by
        rw [find_insert_front hBefore hLine, hNone]
      rcases exists_find_of_texts hTexts hInserted with
        ⟨found, hFind, hSame⟩
      rw [Option.map_none, Option.map_eq_none_iff] at hSame
      rw [hFind, hSame]
    · intro d hFind hClosed
      rcases exists_occupies_of_find hFind with
        ⟨front, run, back, hSplit, hOccupies⟩
      refine ⟨front, run, back, hSplit, hOccupies, ?_⟩
      intro hPlace
      have hInserted :
          find name (before ++ { text } :: after) =
            .ok (some d) :=
        find_insert hLine hFind hClosed hSplit hOccupies hPlace
      rcases exists_find_of_texts hTexts hInserted with
        ⟨found, hFound, hSame⟩
      rw [Option.map_some, Option.map_eq_some_iff] at hSame
      rcases hSame with ⟨d', rfl, hUnplaced⟩
      refine ⟨d', hFound, ?_, ?_⟩
      · have hComments :
            d'.unplaced.comments = d.unplaced.comments :=
          congrArg Directive.comments hUnplaced
        exact hComments
      · have hArguments :
            d'.unplaced.arguments = d.unplaced.arguments :=
          congrArg Directive.arguments hUnplaced
        exact sameRequest_of_arguments hArguments

/- A directive on two lines. -/
def pairLines : List DocLine :=
  DocLine.unplaced [utf8 "// @alias(A,", utf8 "// B)"]

def pairDirective : Directive :=
  { name := utf8 "alias"
    comments := pairLines.map DocLine.text
    arguments := utf8 "(A,\n B)"
    segments := [⟨0, {}⟩, ⟨4, {}⟩] }

theorem find_ignores_longer_name :
    Settings.isIdentifier (utf8 "alias") = true ∧
      Settings.isIdentifier (utf8 "aliases") = true ∧
      starts (utf8 "aliases") (utf8 "// @aliases(C,") = true ∧
      find (utf8 "alias") pairLines = .ok (some pairDirective) ∧
      depth pairDirective.arguments ≤ 0 ∧
      ∃ d,
        find (utf8 "alias")
            (pairLines ++
              DocLine.unplaced [utf8 "// @aliases(C,"]) =
          .ok (some d) ∧
          d.comments = pairDirective.comments ∧
          Alias.SameRequest d.aliases pairDirective.aliases := by
  have hName : Settings.isIdentifier (utf8 "alias") = true := by
    decide +kernel
  have hOther :
      Settings.isIdentifier (utf8 "aliases") = true := by
    decide +kernel
  have hNe : utf8 "alias" ≠ utf8 "aliases" := by
    decide
  have hText :
      starts (utf8 "aliases") (utf8 "// @aliases(C,") = true := by
    decide +kernel
  have hFind :
      find (utf8 "alias") pairLines =
        .ok (some pairDirective) := by
    decide +kernel
  have hClosed : depth pairDirective.arguments ≤ 0 := by
    decide +kernel
  have hIgnores :=
    (find_ignores_other_names hName hOther hNe).2 pairLines []
      (pairLines ++ DocLine.unplaced [utf8 "// @aliases(C,"])
      (utf8 "// @aliases(C,") hText rfl
  rw [List.append_nil] at hIgnores
  rcases hIgnores.2 pairDirective hFind hClosed with
    ⟨front, run, back, hSplit, _, hSame⟩
  have hPlace : (front ++ run).length ≤ pairLines.length := by
    simp [hSplit]
  exact ⟨hName, hOther, hText, hFind, hClosed,
    hSame (Or.inr hPlace)⟩

end Directive

end Namesake
