import Namesake.Proofs.Directive.Search

/-
  Directives without their positions.  What a search finds and
  what a directive asks for depend on the texts of the lines
  alone: lines that stand elsewhere give the same directive,
  elsewhere.

  Main declarations:
    * `Directive.unplaced`
    * `Directive.find_unplaced`
    * `Alias.unplaced`
    * `Directive.aliases_unplaced`
-/

namespace Namesake

------------------------------------------------------------
-- Failing Together
------------------------------------------------------------

/- Two results of which one is an image of the other. -/
theorem cases_of_toOption_eq_map
    {ε ε' α β : Type}
    {x : Except ε α}
    {y : Except ε' β}
    {f : α → β}
    (h : y.toOption = x.toOption.map f) :
    (∃ e e', x = .error e ∧ y = .error e') ∨
      ∃ a, x = .ok a ∧ y = .ok (f a) := by
  cases x with
  | error e =>
      cases y with
      | error e' => exact Or.inl ⟨e, e', rfl, rfl⟩
      | ok b => cases h
  | ok a =>
      cases y with
      | error e' => cases h
      | ok b =>
          cases h
          exact Or.inr ⟨a, rfl, rfl⟩

------------------------------------------------------------
-- Directives
------------------------------------------------------------

theorem Position.shift_default
    (n : Int) :
    ({} : Position).shift n = {} :=
  rfl

namespace Directive

/- A directive that stands nowhere. -/
def unplaced
    (d : Directive) : Directive :=
  { d with segments := d.segments.map fun s => ⟨s.offset, {}⟩ }

/- A search through lines that stand nowhere. -/
def Search.unplaced : Search → Search
  | .searching => .searching
  | .reading d => .reading d.unplaced
  | .found d => .found d.unplaced

/- A search finds the same directive, with its positions lost. -/
theorem Search.directive?_unplaced
    (s : Search) :
    s.unplaced.directive? = s.directive?.map Directive.unplaced := by
  cases s <;> rfl

/- Whether a line starts a directive is a matter of its text. -/
theorem matchLine?_unplaced
    (name : Bytes)
    (line : DocLine) :
    matchLine? name { text := line.text } =
      (matchLine? name line).map fun m => (m.1, {}) := by
  unfold matchLine? DocLine.body?
  simp only [Position.shift_default]
  cases slashes.isPrefixOf? line.text with
  | none => rfl
  | some body =>
      simp only
      cases List.isPrefixOf? (0x40 :: name)
          (body.dropWhile isMargin) with
      | none => rfl
      | some rest =>
          simp only
          cases Bytes.firstCode? rest with
          | none => rfl
          | some n =>
              simp only
              split <;> rfl

theorem scanLine_unplaced
    (name : Bytes)
    (s : Search)
    (line : DocLine) :
    (scanLine name s.unplaced { text := line.text }).toOption =
      (scanLine name s line).toOption.map Search.unplaced := by
  unfold scanLine
  rw [matchLine?_unplaced, Search.directive?_unplaced]
  cases matchLine? name line with
  | none => rfl
  | some m =>
      cases s.directive? with
      | none => rfl
      | some first => rfl

/- A segment is added at the same offset wherever its line is. -/
theorem extend_unplaced
    (d : Directive)
    (line : DocLine)
    (body : Bytes) :
    d.unplaced.extend { text := line.text } body =
      (d.extend line body).unplaced := by
  simp [extend, unplaced, Position.shift_default]

/- One line is searched alike, in every state of the search. -/
theorem searchLine_unplaced
    (name : Bytes)
    (s : Search)
    (line : DocLine) :
    (searchLine name s.unplaced { text := line.text }).toOption =
      (searchLine name s line).toOption.map Search.unplaced := by
  cases s with
  | searching => exact scanLine_unplaced name .searching line
  | found d => exact scanLine_unplaced name (.found d) line
  | reading d =>
      have hBody :
          DocLine.body? { text := line.text } = line.body? :=
        rfl
      have hArguments : d.unplaced.arguments = d.arguments :=
        rfl
      simp only [Search.unplaced, searchLine, hBody, hArguments]
      split
      · cases line.body? with
        | none => exact scanLine_unplaced name (.found d) line
        | some body =>
            simp only
            rw [extend_unplaced]
            rfl
      · exact scanLine_unplaced name (.found d) line

/- And so are all lines, by induction on the comment. -/
theorem search_unplaced
    (name : Bytes)
    (s : Search)
    (doc : List DocLine) :
    (search name s.unplaced
        (DocLine.unplaced (doc.map DocLine.text))).toOption =
      (search name s doc).toOption.map Search.unplaced := by
  induction doc generalizing s with
  | nil => rfl
  | cons line doc ih =>
      simp only [List.map_cons, DocLine.unplaced, search] at ih ⊢
      rcases cases_of_toOption_eq_map
          (searchLine_unplaced name s line) with
        ⟨e, e', hPlaced, hBare⟩ | ⟨s', hPlaced, hBare⟩
      · rw [hPlaced, hBare]
        rfl
      · rw [hPlaced, hBare]
        exact ih s'

/- What is found in a doc comment does not depend on its place. -/
theorem find_unplaced
    (name : Bytes)
    (doc : List DocLine) :
    (find name
        (DocLine.unplaced (doc.map DocLine.text))).toOption =
      (find name doc).toOption.map
        (Option.map Directive.unplaced) := by
  have hSearch := search_unplaced name .searching doc
  unfold find
  rcases cases_of_toOption_eq_map hSearch with
    ⟨e, e', hPlaced, hBare⟩ | ⟨s, hPlaced, hBare⟩
  · rw [hPlaced, show search name .searching _ = _ from hBare]
    rfl
  · rw [hPlaced, show search name .searching _ = _ from hBare]
    exact congrArg some (Search.directive?_unplaced s)

/- Lines with the same texts hold the same directive. -/
theorem exists_find_of_texts
    {name : Bytes}
    {doc doc' : List DocLine}
    {found : Option Directive}
    (hTexts : doc'.map DocLine.text = doc.map DocLine.text)
    (hFind : find name doc = .ok found) :
    ∃ found',
      find name doc' = .ok found' ∧
        found'.map Directive.unplaced =
          found.map Directive.unplaced := by
  have hSame := find_unplaced name doc'
  rw [hTexts, find_unplaced, hFind] at hSame
  cases hFind' : find name doc' with
  | error e =>
      rw [hFind'] at hSame
      cases hSame
  | ok found' =>
      rw [hFind'] at hSame
      exact ⟨found', rfl, (Option.some.inj hSame).symm⟩

/- What stands nowhere has no position at any offset. -/
theorem position_unplaced
    (d : Directive)
    (offset : Nat) :
    d.unplaced.position offset = {} := by
  have hSegment
      (current : Segment)
      (rest : List Segment)
      (hCurrent : current.position = {}) :
      (segmentAt offset current
        (rest.map fun s => ⟨s.offset, {}⟩)).position = {} := by
    induction rest generalizing current with
    | nil => exact hCurrent
    | cons s rest ih =>
        simp only [List.map_cons, segmentAt]
        split
        · exact hCurrent
        · exact ih _ rfl
  unfold position unplaced
  cases d.segments with
  | nil => rfl
  | cons s rest =>
      simp only [List.map_cons]
      rw [hSegment _ _ rfl, Position.shift_default]

end Directive

/- An alias that stands nowhere. -/
def Alias.unplaced
    (a : Alias) : Alias :=
  { a with span := {} }

/- Only the spans of aliases depend on where they stand. -/
theorem Directive.aliases_unplaced
    (d : Directive) :
    d.unplaced.aliases.toOption =
      d.aliases.toOption.map (List.map Alias.unplaced) := by
  have hArguments : d.unplaced.arguments = d.arguments :=
    rfl
  unfold aliases Alias.parse
  rw [hArguments]
  cases Arguments.read d.arguments with
  | error e => rfl
  | ok entries =>
      simp [Except.toOption, Alias.ofEntry, Alias.unplaced,
        position_unplaced]

end Namesake
