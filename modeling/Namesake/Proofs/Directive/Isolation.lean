import Namesake.Proofs.Directive.Depth
import Namesake.Proofs.Directive.Strip

/-
  Searches take out of a doc comment just the lines of a
  directive.  They stop at the line that closes the list of
  its arguments, neither at a line end before, although a
  literal may be unfinished there, nor at a later one.

  Main declarations:
    * `Directive.Spells`
    * `Directive.exists_search_reading`
    * `Directive.find_isolates_arguments`
-/

namespace Namesake

namespace Directive

------------------------------------------------------------
-- Lines with Arguments
------------------------------------------------------------

/-
  The texts of arguments on some lines: behind the name on the
  first line, and behind the slashes on the others.
-/
inductive Spells
    (name : Bytes) : List DocLine → List Bytes → Prop where
  | intro
      {line : DocLine}
      {lines : List DocLine}
      {text : Bytes}
      {position : Position}
      {bodies : List Bytes}
      (hFirst : matchLine? name line = some (text, position))
      (hRest :
        List.Forall₂
          (fun line body => DocLine.body? line = some body)
          lines bodies) :
      Spells name (line :: lines) (text :: bodies)

/-
  The first parenthesis of the joined texts is in the first
  of them, and the last one in the last.
-/
structure Encloses
    (texts : List Bytes) : Prop where
  first :
    ∃ n ∈ (parens (Bytes.join [0x0a] texts)).head?,
      ∃ text ∈ texts.head?, n < text.length
  last :
    ∃ n ∈ (parens (Bytes.join [0x0a] texts)).getLast?,
      ∃ text ∈ texts.getLast?,
        (Bytes.join [0x0a] texts).length ≤ n + text.length

/- A parenthesis is open behind all texts but the last. -/
theorem Encloses.depth_pos
    {texts left right : List Bytes}
    {locate : Nat → Position}
    {aliases : List Alias}
    (h : Encloses texts)
    (hParse :
      Alias.parse (Bytes.join [0x0a] texts) locate =
        .ok aliases)
    (hTexts : texts = left ++ right)
    (hLeft : left ≠ [])
    (hRight : right ≠ []) :
    0 < depth (Bytes.join [0x0a] left) := by
  have hJoin :
      Bytes.join [0x0a] texts =
        Bytes.join [0x0a] left ++
          0x0a :: Bytes.join [0x0a] right := by
    rw [hTexts, Bytes.join_append _ hLeft hRight]
    simp
  rcases h.first with ⟨n, hHead, text, hText, hLess⟩
  rcases h.last with ⟨m, hEnd, last, hLast, hLe⟩
  have hFirst :
      text.length ≤ (Bytes.join [0x0a] left).length := by
    rw [hTexts, List.head?_append_of_ne_nil _ hLeft] at hText
    exact Bytes.length_le_join_of_head? hText
  have hFinal :
      last.length ≤ (Bytes.join [0x0a] right).length := by
    rw [hTexts, List.getLast?_append_of_ne_nil _ hRight]
      at hLast
    exact Bytes.length_le_join_of_getLast? hLast
  rw [hJoin] at hParse hHead hEnd hLe
  refine depth_pos_of_cut hParse ⟨n, hHead, by omega⟩
    ⟨m, hEnd, ?_⟩
  rw [List.length_append, List.length_cons] at hLe
  omega

------------------------------------------------------------
-- Searching
------------------------------------------------------------

/- A search takes lines as long as a parenthesis is open. -/
theorem exists_search_reading
    (name : Bytes)
    {d : Directive}
    {lines : List DocLine}
    {bodies : List Bytes}
    (hBodies :
      List.Forall₂
        (fun line body => DocLine.body? line = some body)
        lines bodies)
    (hOpen :
      ∀ left right,
        bodies = left ++ right → right ≠ [] →
          0 < depth (Bytes.join [0x0a] (d.arguments :: left))) :
    ∃ d',
      search name (.reading d) lines = .ok (.reading d') ∧
        d'.comments = d.comments ++ lines.map DocLine.text ∧
        d'.arguments =
          Bytes.join [0x0a] (d.arguments :: bodies) := by
  induction hBodies generalizing d with
  | nil => exact ⟨d, rfl, by simp, by simp⟩
  | @cons line body lines bodies hBody hRest ih =>
      have hDepth : depth d.arguments > 0 := by
        simpa using
          hOpen [] (body :: bodies) rfl (List.cons_ne_nil _ _)
      have hStep :
          searchLine name (.reading d) line =
            .ok (.reading (d.extend line body)) := by
        simp only [searchLine, if_pos hDepth, hBody]
      have hLater :
          ∀ left right,
            bodies = left ++ right → right ≠ [] →
              0 < depth
                (Bytes.join [0x0a]
                  ((d.extend line body).arguments :: left)) := by
        intro left right hEq hRight
        have hOne := hOpen (body :: left) right
          (congrArg (body :: ·) hEq) hRight
        rw [← Bytes.join_joined] at hOne
        exact hOne
      rcases ih hLater with
        ⟨d', hSearch, hComments, hArguments⟩
      refine ⟨d', ?_, ?_, ?_⟩
      · rw [search, hStep]
        exact hSearch
      · rw [hComments]
        simp [extend]
      · rw [hArguments, ← Bytes.join_joined]
        rfl

/- What a directive asks for does not depend on its place. -/
theorem exists_parse_of_parse
    {src : Bytes}
    {locate : Nat → Position}
    {aliases : List Alias}
    (h : Alias.parse src locate = .ok aliases)
    (locate' : Nat → Position) :
    ∃ aliases',
      Alias.parse src locate' = .ok aliases' ∧
        aliases'.map (fun a => (a.name, a.deprecation)) =
          aliases.map fun a => (a.name, a.deprecation) := by
  rcases Alias.parse_eq_ok_iff.mp h with
    ⟨entries, hRead, rfl⟩
  refine ⟨entries.map (Alias.ofEntry locate'),
    Alias.parse_eq_ok_iff.mpr ⟨entries, hRead, rfl⟩, ?_⟩
  rw [List.map_map, List.map_map]
  rfl

/-
  Lines with a list of aliases stand in a doc comment in which
  no other line starts the directive.  If the list opens on
  the first of them and closes on the last, exactly these
  lines are found, where they are, and their list is read.
-/
theorem find_isolates_arguments
    {name : Bytes}
    {before run after : List DocLine}
    {texts : List Bytes}
    {locate : Nat → Position}
    {aliases : List Alias}
    (hRun : Spells name run texts)
    (hBefore :
      ∀ line ∈ before, starts name line.text = false)
    (hAfter : ∀ line ∈ after, starts name line.text = false)
    (hParse :
      Alias.parse (Bytes.join [0x0a] texts) locate =
        .ok aliases)
    (hEncloses : Encloses texts) :
    ∃ d,
      find name (before ++ run ++ after) = .ok (some d) ∧
        d.comments = run.map DocLine.text ∧
        d.indexIn?
            ((before ++ run ++ after).map DocLine.text) =
          some before.length ∧
        ∃ found,
          d.aliases = .ok found ∧
            found.map (fun a => (a.name, a.deprecation)) =
              aliases.map fun a => (a.name, a.deprecation) := by
  cases hRun with
  | @intro line lines text position bodies hFirst hRest =>
      have hBegin :
          searchLine name .searching line =
            .ok (.reading (begin name line text position)) := by
        simp only [searchLine, scanLine, hFirst,
          Search.directive?]
      have hOpen :
          ∀ left right,
            bodies = left ++ right → right ≠ [] →
              0 < depth (Bytes.join [0x0a] (text :: left)) := by
        intro left right hEq hRight
        exact hEncloses.depth_pos hParse
          (congrArg (text :: ·) hEq) (List.cons_ne_nil _ _)
          hRight
      rcases exists_search_reading name hRest
          (d := begin name line text position) hOpen with
        ⟨d, hRead, hComments, hArguments⟩
      have hSource :
          d.arguments = Bytes.join [0x0a] (text :: bodies) :=
        hArguments
      have hClosed : depth d.arguments = 0 := by
        rw [hSource]
        exact depth_of_parse hParse
      rcases exists_search_of_closed (Int.le_of_eq hClosed)
          hAfter with
        ⟨s, hEnd, hFound⟩
      have hSearch :
          search name .searching
              (before ++ (line :: lines) ++ after) =
            .ok s := by
        rw [List.append_assoc,
          search_append_of_ok _
            (search_of_not_starts (by simp) hBefore),
          List.cons_append, search, hBegin]
        simp only
        rw [search_append_of_ok _ hRead]
        exact hEnd
      have hStarts : starts name line.text = true := by
        rw [← isSome_matchLine?, hFirst]
        rfl
      have hOccupies :
          Occupies name d before (line :: lines) after :=
        ⟨hComments, ⟨line, lines, rfl, hStarts⟩, hBefore,
          hAfter⟩
      rw [← hSource] at hParse
      refine ⟨d, ?_, hComments, ?_,
        exists_parse_of_parse hParse d.position⟩
      · rw [find, hSearch]
        exact congrArg Except.ok hFound
      · unfold indexIn?
        rw [List.isEmpty_eq_false_iff.mpr
          hOccupies.comments_ne_nil]
        exact hOccupies.runIndex?_eq

/- A list over three lines, cut in a literal and a comment. -/
def cutLines : List DocLine :=
  DocLine.unplaced
    [utf8 "// @alias(A, deprecated(B, note = `x) (",
      utf8 "// y`), /* ) ) (",
      utf8 "// ( */ C)"]

/- What these lines say about aliases. -/
def cutTexts : List Bytes :=
  [utf8 "(A, deprecated(B, note = `x) (",
    utf8 " y`), /* ) ) (",
    utf8 " ( */ C)"]

theorem find_isolates_cut_lines :
    ∃ d found,
      find (utf8 "alias")
          (DocLine.unplaced [utf8 "// F (see @aliases)"] ++
            cutLines ++
            DocLine.unplaced [utf8 "// is ) closed"]) =
        .ok (some d) ∧
      d.comments = cutLines.map DocLine.text ∧
      d.aliases = .ok found ∧
      found.map (fun a => (a.name, a.deprecation)) =
        [(utf8 "A", none),
          (utf8 "B",
            some { note := some (utf8 "x) (\n y") }),
          (utf8 "C", none)] := by
  have hFirst :
      (matchLine? (utf8 "alias")
          { text :=
              utf8 "// @alias(A, deprecated(B, note = `x) (" }).map
          Prod.fst =
        some (utf8 "(A, deprecated(B, note = `x) (") := by
    decide +kernel
  rcases Option.map_eq_some_iff.mp hFirst with
    ⟨⟨text, position⟩, hMatch, hText⟩
  have hRun : Spells (utf8 "alias") cutLines cutTexts := by
    rw [cutTexts, ← hText]
    refine Spells.intro hMatch (List.Forall₂.cons ?_
      (List.Forall₂.cons ?_ List.Forall₂.nil))
    · decide +kernel
    · decide +kernel
  have hBefore :
      ∀ line ∈ DocLine.unplaced [utf8 "// F (see @aliases)"],
        starts (utf8 "alias") line.text = false := by
    decide +kernel
  have hAfter :
      ∀ line ∈ DocLine.unplaced [utf8 "// is ) closed"],
        starts (utf8 "alias") line.text = false := by
    decide +kernel
  have hParse :
      Alias.parse (Bytes.join [0x0a] cutTexts) (fun _ => {}) =
        .ok
          [{ name := utf8 "A" },
            { name := utf8 "B"
              deprecation :=
                some { note := some (utf8 "x) (\n y") } },
            { name := utf8 "C" }] := by
    decide +kernel
  have hParens :
      parens (Bytes.join [0x0a] cutTexts) =
        [0, 14, 34, 53] := by
    decide +kernel
  have hEncloses : Encloses cutTexts := by
    constructor
    · rw [hParens]
      exact ⟨0, rfl, _, rfl, by decide⟩
    · rw [hParens]
      exact ⟨53, rfl, _, rfl, by decide⟩
  rcases find_isolates_arguments hRun hBefore hAfter hParse
      hEncloses with
    ⟨d, hFind, hComments, _, found, hFound, hSame⟩
  exact ⟨d, found, hFind, hComments, hFound, hSame⟩

end Directive

end Namesake
