import Mathlib.Data.List.DropRight
import Namesake.Proofs.Expand.Clones
import Namesake.Proofs.Directive.Strip

/-
  What is left of comment lines without their directive.  All
  lines around the directive stay, except a separator that
  would meet another one and empty comments at the end, so
  that taking out a directive loses no text, and taking it out
  twice is taking it out once.

  Main declarations:
    * `Directive.indexIn?_eq_none_iff`
    * `Directive.meets`
    * `Directive.IsResidue`
    * `Directive.isResidue_dropDangling_rejoin`
    * `Directive.clean_loses_only_directive`
-/

namespace Namesake

namespace Directive

------------------------------------------------------------
-- Missing Runs
------------------------------------------------------------

theorem runIndex?_eq_none_iff
    {run lines : List Bytes}
    (hRun : run ≠ []) :
    runIndex? run lines = none ↔ ¬ run <:+: lines := by
  constructor
  · intro hNone hInfix
    rcases runIndex?_of_infix [] hRun hInfix with ⟨i, hSome, _⟩
    rw [List.append_nil, hNone] at hSome
    cases hSome
  · intro hInfix
    have hFront
        (left right : List Bytes)
        (hEq : lines = left ++ right)
        (_ : right ≠ []) :
        ¬ run <+: right ++ [] := by
      intro hPrefix
      rw [List.append_nil] at hPrefix
      rw [hEq] at hInfix
      exact hInfix
        (hPrefix.isInfix.trans (List.suffix_append _ _).isInfix)
    have hEnd : runIndex? run [] = none := by
      unfold runIndex?
      rw [List.isEmpty_eq_false_iff.mpr hRun]
      rfl
    have hIndex := runIndex?_append lines [] hFront
    rw [List.append_nil, hEnd] at hIndex
    exact hIndex

/- A directive has no index exactly where its lines do not occur. -/
theorem indexIn?_eq_none_iff
    (d : Directive)
    (lines : List Bytes) :
    d.indexIn? lines = none ↔
      d.comments = [] ∨ ¬ d.comments <:+: lines := by
  unfold indexIn?
  by_cases hRun : d.comments = []
  · simp [hRun]
  · rw [List.isEmpty_eq_false_iff.mpr hRun, if_neg (by simp),
      runIndex?_eq_none_iff hRun]
    simp [hRun]

/- What an index says of the lines. -/
theorem exists_of_runIndex?_eq_some
    {run lines : List Bytes}
    {i : Nat}
    (h : runIndex? run lines = some i) :
    ∃ front rest,
      lines = front ++ run ++ rest ∧ front.length = i := by
  induction lines generalizing i with
  | nil =>
      rw [runIndex?, Option.ite_none_right_eq_some] at h
      rcases h with ⟨hRun, hIndex⟩
      refine ⟨[], [], ?_, Option.some.inj hIndex⟩
      simpa using hRun
  | cons line lines ih =>
      rw [runIndex?] at h
      split at h
      · rename_i hPrefix
        rcases List.isPrefixOf_iff_prefix.mp hPrefix with
          ⟨rest, hRest⟩
        exact ⟨[], rest, hRest.symm, Option.some.inj h⟩
      · rcases Option.map_eq_some_iff.mp h with ⟨j, hLater, rfl⟩
        rcases ih hLater with ⟨front, rest, rfl, rfl⟩
        exact ⟨line :: front, rest, rfl, rfl⟩

/- Lines without the directive are left as they are. -/
theorem strip_of_indexIn?_eq_none
    {d : Directive}
    {lines : List Bytes}
    (h : d.indexIn? lines = none) :
    d.strip lines = lines := by
  unfold strip
  rw [h]

------------------------------------------------------------
-- Separators
------------------------------------------------------------

/- Do two separators meet where a directive is taken out? -/
def meets
    (before after : List Bytes) : Bool :=
  before.getLast?.any isSeparator && after.head?.any isSeparator

/- Of two separators that meet, the second is dropped. -/
theorem rejoin_eq
    (before after : List Bytes) :
    rejoin before after =
      before ++ if meets before after then after.tail else after := by
  unfold rejoin meets
  cases before.getLast? with
  | none => rfl
  | some last =>
      cases after with
      | nil => simp
      | cons line rest =>
          exact (apply_ite (before ++ ·) _ rest (line :: rest)).symm

/- Only empty comments are dropped at the end. -/
theorem exists_dropDangling_append
    (lines : List Bytes) :
    ∃ dangling,
      (∀ line ∈ dangling, line = slashes) ∧
        dropDangling lines ++ dangling = lines := by
  refine ⟨lines.rtakeWhile (· == slashes), ?_, ?_⟩
  · intro line hMem
    have hTrue : (line == slashes) = true :=
      List.mem_rtakeWhile_imp (p := (· == slashes)) hMem
    exact beq_iff_eq.mp hTrue
  · unfold dropDangling List.rtakeWhile
    rw [← List.reverse_append, List.takeWhile_append_dropWhile,
      List.reverse_reverse]

/- And none is left there. -/
theorem getLast?_dropDangling
    (lines : List Bytes) :
    (dropDangling lines).getLast? ≠ some slashes := by
  intro hLast
  rcases List.getLast?_eq_some_iff.mp hLast with ⟨front, hEnd⟩
  have hNil : dropDangling lines ≠ [] := by
    rw [hEnd]
    simp
  have hNot := List.rdropWhile_last_not (· == slashes) lines hNil
  apply hNot
  rw [beq_iff_eq]
  exact Option.some.inj ((List.getLast?_eq_some_getLast hNil).symm.trans hLast)

------------------------------------------------------------
-- Residues
------------------------------------------------------------

/- Lines that say something, in order. -/
def spoken
    (lines : List Bytes) : List Bytes :=
  lines.filter fun line => !isSeparator line

theorem spoken_append
    (front rest : List Bytes) :
    spoken (front ++ rest) = spoken front ++ spoken rest :=
  List.filter_append front rest

theorem spoken_eq_nil
    {lines : List Bytes}
    (h : ∀ line ∈ lines, line = slashes) :
    spoken lines = [] := by
  unfold spoken
  rw [List.filter_eq_nil_iff]
  intro line hMem
  rw [h line hMem]
  decide

/-
  What is left of the lines before and after a directive: all
  lines that say something, and of the separators all but the
  one that meets another and the empty comments at the end.
-/
structure IsResidue
    (before after kept : List Bytes) : Prop where
  spoken : spoken kept = spoken (before ++ after)
  dropped :
    ∃ dangling,
      (∀ line ∈ dangling, line = slashes) ∧
        kept ++ dangling =
          before ++ if meets before after then after.tail else after
  ends : kept.getLast? ≠ some slashes

/- Of the lines behind the directive none that speaks is dropped. -/
theorem spoken_after
    (before after : List Bytes) :
    spoken (if meets before after then after.tail else after) =
      spoken after := by
  by_cases h : meets before after = true
  · rw [if_pos h]
    cases after with
    | nil => rfl
    | cons line rest =>
        have hLine : isSeparator line = true := by
          simp only [meets, Bool.and_eq_true] at h
          exact h.2
        simp [spoken, hLine]
  · rw [if_neg h]

/- Nor is one at the end. -/
theorem spoken_dropDangling
    (lines : List Bytes) :
    spoken (dropDangling lines) = spoken lines := by
  rcases exists_dropDangling_append lines with
    ⟨dangling, hDangling, hParts⟩
  rw [← hParts, spoken_append, spoken_eq_nil hDangling,
    List.append_nil, hParts]

theorem sublist_after
    (before after : List Bytes) :
    (if meets before after then after.tail else after).Sublist
      after := by
  split
  · exact List.tail_sublist after
  · exact List.Sublist.refl after

theorem isResidue_dropDangling_rejoin
    (before after : List Bytes) :
    IsResidue before after (dropDangling (rejoin before after)) := by
  rcases exists_dropDangling_append (rejoin before after) with
    ⟨dangling, hDangling, hParts⟩
  refine
    { spoken := ?_
      dropped := ⟨dangling, hDangling, ?_⟩
      ends := getLast?_dropDangling _ }
  · rw [spoken_dropDangling, rejoin_eq, spoken_append,
      spoken_after, ← spoken_append]
  · rw [hParts, rejoin_eq]

/- Nothing is added and the order is kept. -/
theorem IsResidue.sublist
    {before after kept : List Bytes}
    (h : IsResidue before after kept) :
    kept.Sublist (before ++ after) := by
  rcases h.dropped with ⟨dangling, _, hParts⟩
  have hKept :
      kept.Sublist
        (before ++ if meets before after then after.tail else after) := by
    rw [← hParts]
    exact List.sublist_append_left kept dangling
  exact hKept.trans ((sublist_after before after).append_left before)

/- Stripping leaves the residue of the lines around the directive. -/
theorem strip_of_indexIn?
    {d : Directive}
    {before after : List Bytes}
    (h :
      d.indexIn? (before ++ d.comments ++ after) =
        some before.length) :
    d.strip (before ++ d.comments ++ after) =
      dropDangling (rejoin before after) := by
  have hTake :
      (before ++ d.comments ++ after).take before.length = before := by
    rw [List.append_assoc, List.take_left]
  have hDrop :
      (before ++ d.comments ++ after).drop
          (before.length + d.comments.length) =
        after := by
    rw [← List.length_append, List.drop_left]
  unfold strip
  rw [h]
  simp only [hTake, hDrop]

/- Lines are left as they are, or one run is taken out of them. -/
theorem strip_cases
    (d : Directive)
    (lines : List Bytes) :
    d.strip lines = lines ∨
      ∃ front rest,
        lines = front ++ d.comments ++ rest ∧
          d.comments ≠ [] ∧
          d.strip lines = dropDangling (rejoin front rest) := by
  cases hIndex : d.indexIn? lines with
  | none => exact Or.inl (strip_of_indexIn?_eq_none hIndex)
  | some i =>
      have hRun := hIndex
      rw [indexIn?, Option.ite_none_left_eq_some] at hRun
      rcases exists_of_runIndex?_eq_some hRun.2 with
        ⟨front, rest, rfl, rfl⟩
      refine Or.inr ⟨front, rest, rfl, ?_, strip_of_indexIn? hIndex⟩
      simpa using hRun.1

/-
  Behind lines in which no equal run starts, a directive is
  found in the lines it was read from where it is.
-/
theorem Occupies.indexIn?_append_eq
    {name : Bytes}
    {d : Directive}
    {before run after : List DocLine}
    (hRun : Occupies name d before run after)
    (front : List Bytes)
    (hFront :
      ∀ left right,
        front = left ++ right → right ≠ [] →
          ¬ d.comments <+:
              right ++ (before ++ run ++ after).map DocLine.text) :
    d.indexIn?
        (front ++ before.map DocLine.text ++ d.comments ++
          after.map DocLine.text) =
      some (front ++ before.map DocLine.text).length := by
  have hIndex := hRun.runIndex?_append_eq hFront
  rw [List.map_append, List.map_append, ← hRun.comments,
    ← List.append_assoc, ← List.append_assoc] at hIndex
  unfold indexIn?
  rw [List.isEmpty_eq_false_iff.mpr hRun.comments_ne_nil,
    if_neg (by simp), hIndex, List.length_append,
    List.length_map, Nat.add_comm]

/- With nothing in front this is so for every directive. -/
theorem Occupies.indexIn?_eq
    {name : Bytes}
    {d : Directive}
    {before run after : List DocLine}
    (hRun : Occupies name d before run after) :
    d.indexIn?
        (before.map DocLine.text ++ d.comments ++
          after.map DocLine.text) =
      some (before.map DocLine.text).length := by
  apply hRun.indexIn?_append_eq []
  intro left right hEq hRight
  exact absurd (List.append_eq_nil_iff.mp hEq.symm).2 hRight

/- No line around a directive starts it. -/
theorem Occupies.not_starts_of_mem
    {name : Bytes}
    {d : Directive}
    {before run after : List DocLine}
    (hRun : Occupies name d before run after)
    {text : Bytes}
    (hText :
      text ∈ before.map DocLine.text ++ after.map DocLine.text) :
    starts name text = false :=
  hRun.not_starts_of_mem_kept (Or.inl rfl) hText

/- So the lines of the directive are not among them. -/
theorem Occupies.not_infix
    {name : Bytes}
    {d : Directive}
    {before run after : List DocLine}
    (hRun : Occupies name d before run after)
    {lines : List Bytes}
    (hLines : ∀ text ∈ lines, starts name text = false) :
    ¬ d.comments <:+: lines := by
  intro hInfix
  rcases hRun.first with ⟨first, others, hFirst, hStarts⟩
  have hMem : first.text ∈ d.comments := by
    rw [hRun.comments, hFirst]
    exact List.mem_cons_self
  rw [hLines _ (hInfix.subset hMem)] at hStarts
  cases hStarts

/-
  Taking the directive of its comment lines out of a
  declaration keeps all other lines but needless separators,
  leaves no directive and is the same when done twice; a
  declaration without the lines of the directive stays as it
  is.
-/
theorem clean_loses_only_directive
    (d : Directive)
    (decl : Decl) :
    (∀ name doc,
      decl.isBad = false →
      doc.map DocLine.text = decl.start →
      find name doc = .ok (some d) →
        ∃ before after kept,
          decl.start = before ++ d.comments ++ after ∧
            d.indexIn? decl.start = some before.length ∧
            Expand.clean (some d) decl =
              { decl with start := kept } ∧
            kept.Sublist decl.start ∧
            IsResidue before after kept ∧
            (∀ doc', doc'.map DocLine.text = kept →
              find name doc' = .ok none) ∧
            Expand.clean (some d) (Expand.clean (some d) decl) =
              Expand.clean (some d) decl) ∧
    (d.comments = [] ∨ ¬ d.comments <:+: decl.start →
      Expand.clean (some d) decl = decl) := by
  constructor
  · intro name doc hDecl hDoc hFind
    rcases exists_occupies_of_find hFind with
      ⟨before, run, after, rfl, hRun⟩
    have hStart :
        decl.start =
          before.map DocLine.text ++ d.comments ++
            after.map DocLine.text := by
      rw [← hDoc, List.map_append, List.map_append, hRun.comments]
    have hIndex := hRun.indexIn?_eq
    have hStrip := strip_of_indexIn? hIndex
    rw [← hStart] at hIndex hStrip
    generalize hKept :
      dropDangling
        (rejoin (before.map DocLine.text) (after.map DocLine.text)) =
          kept at hStrip
    have hResidue :
        IsResidue (before.map DocLine.text) (after.map DocLine.text)
          kept := by
      rw [← hKept]
      exact isResidue_dropDangling_rejoin _ _
    have hSilent :
        ∀ text ∈ kept, starts name text = false :=
      fun text hText =>
        hRun.not_starts_of_mem (hResidue.sublist.subset hText)
    have hClean :
        Expand.clean (some d) decl = { decl with start := kept } := by
      simp [Expand.clean, Decl.withStart, hDecl, hStrip]
    refine ⟨_, _, kept, hStart, hIndex, hClean, ?_, hResidue, ?_, ?_⟩
    · rw [hStart, List.append_assoc]
      exact hResidue.sublist.trans
        ((List.sublist_append_right _ _).append_left _)
    · intro doc' hDoc'
      rw [find_eq_none_iff]
      intro line hLine
      apply hSilent
      rw [← hDoc']
      exact List.mem_map_of_mem hLine
    · have hNone : d.indexIn? kept = none := by
        rw [indexIn?_eq_none_iff]
        exact Or.inr (hRun.not_infix hSilent)
      have hSame : ({ decl with start := kept } : Decl).isBad = false :=
        hDecl
      rw [hClean]
      simp [Expand.clean, Decl.withStart, hSame,
        strip_of_indexIn?_eq_none hNone]
  · intro hMissing
    have hSame := strip_of_indexIn?_eq_none
      ((indexIn?_eq_none_iff d decl.start).mpr hMissing)
    unfold Expand.clean Decl.withStart
    simp only [hSame]
    split <;> rfl

/- A directive on two lines between two paragraphs. -/
def paragraphs : List Bytes :=
  [utf8 "/* F. */", [0x0a], utf8 "// One.", slashes,
    utf8 "// @alias(A,", utf8 "// B)", slashes, utf8 "// Two.",
    slashes, slashes]

theorem clean_loses_only_middle_lines :
    ∃ d,
      find (utf8 "alias") (DocLine.unplaced paragraphs) =
        .ok (some d) ∧
      (∃ before after kept,
        paragraphs = before ++ d.comments ++ after ∧
          Expand.clean (some d)
              { body := .func (utf8 "F") none
                start := paragraphs } =
            { body := .func (utf8 "F") none
              start := kept } ∧
          IsResidue before after kept ∧
          find (utf8 "alias") (DocLine.unplaced kept) = .ok none) ∧
      ¬ d.comments <:+: [utf8 "// @alias(A,", slashes] ∧
      Expand.clean (some d)
          { body := .general .constKeyword []
            start := [utf8 "// @alias(A,", slashes] } =
        { body := .general .constKeyword []
          start := [utf8 "// @alias(A,", slashes] } := by
  have hFind :
      find (utf8 "alias") (DocLine.unplaced paragraphs) =
        .ok (some
          { name := utf8 "alias"
            comments := [utf8 "// @alias(A,", utf8 "// B)"]
            arguments := utf8 "(A,\n B)"
            segments := [⟨0, {}⟩, ⟨4, {}⟩] }) := by
    decide +kernel
  have hMissing :
      ¬ [utf8 "// @alias(A,", utf8 "// B)"] <:+:
          [utf8 "// @alias(A,", slashes] := by
    decide
  refine ⟨_, hFind, ?_, hMissing, ?_⟩
  · rcases (clean_loses_only_directive _
        { body := .func (utf8 "F") none
          start := paragraphs }).1 _ _ rfl rfl hFind with
      ⟨before, after, kept, hStart, _, hClean, _, hResidue, hSilent, _⟩
    refine ⟨before, after, kept, hStart, hClean, hResidue, ?_⟩
    apply hSilent
    simp [DocLine.unplaced, Function.comp_def]
  · exact (clean_loses_only_directive _ _).2 (Or.inr hMissing)

end Directive

end Namesake
