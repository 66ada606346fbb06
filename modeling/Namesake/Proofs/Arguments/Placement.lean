import Namesake.Proofs.Arguments.Exactness
import Namesake.Proofs.Scanner.Placement

/-
  Where the entries and the errors of directive arguments
  stand: an entry is placed at the name it was read from, in
  the order of the text, and an error inside the text or
  right at its end.

  Main declarations:
    * `Arguments.State.names`
    * `Arguments.Runs.exists_names`
    * `Arguments.standsIn_of_read`
    * `Arguments.pairwise_offset_of_read`
    * `Arguments.offset_le_of_read`
-/

namespace Namesake

namespace Arguments

open Scanner

------------------------------------------------------------
-- Entries
------------------------------------------------------------

/- The name that an entry was read from. -/
def Entry.token
    (e : Entry) : Token :=
  ⟨.ident, e.offset, e.name⟩

theorem Entry.token_of_ident
    {t : Token}
    (hKind : t.kind = .ident) :
    Entry.token ⟨t.text, t.offset, none⟩ = t := by
  rw [Entry.token, ← hKind]

/- The entries that were begun, last one first. -/
def State.entries : State → List Entry
  | .start => []
  | .listing entries
  | .deprecated entries
  | .deprecatedOpen entries
  | .closed entries => entries
  | .listed entries e
  | .details entries e _
  | .detail entries e _
  | .assigning entries e _ _
  | .assigned entries e _ _ => e :: entries

/- The names of the entries that were begun, in order. -/
def State.names
    (s : State) : List Token :=
  s.entries.reverse.map Entry.token

/- A token begins at most one entry, and then is its name. -/
theorem names_step
    {s s' : State}
    {t : Token}
    (hStep : step s t = .ok s') :
    s'.names = s.names ∨ s'.names = s.names ++ [t] := by
  cases s with
  | listing entries =>
      simp only [step] at hStep
      split at hStep
      · split at hStep
        · cases hStep
        · cases hStep
          exact Or.inl rfl
      · split at hStep
        · rename_i hKind
          split at hStep
          · cases hStep
            exact Or.inl rfl
          · cases hStep
            refine Or.inr ?_
            simp [State.names, State.entries,
              Entry.token_of_ident hKind]
        · cases hStep
  | deprecatedOpen entries =>
      simp only [step] at hStep
      split at hStep
      · rename_i hKind
        cases hStep
        refine Or.inr ?_
        simp [State.names, State.entries,
          Entry.token_of_ident hKind]
      · cases hStep
  | start | listed | deprecated | details | detail
  | assigning | assigned | closed =>
      -- all other steps keep the name of the entry they are in
      refine Or.inl ?_
      simp only [step] at hStep
      repeat' split at hStep
      all_goals cases hStep
      all_goals
        simp [State.names, State.entries, Entry.token]

/- The names of entries come from the tokens, in order. -/
theorem Runs.exists_names
    {s s' : State}
    {ts : List Token}
    (hRuns : Runs s ts s') :
    ∃ names,
      s'.names = s.names ++ names ∧ names.Sublist ts := by
  induction hRuns with
  | nil => exact ⟨[], by simp, List.Sublist.refl _⟩
  | @cons s _ _ t _ hStep _ ih =>
      rcases ih with ⟨names, hNames, hSub⟩
      rcases names_step hStep with hSame | hNew
      · rw [hSame] at hNames
        exact ⟨names, hNames, hSub.cons t⟩
      · rw [hNew, List.append_assoc] at hNames
        exact ⟨t :: names, hNames, hSub.cons_cons t⟩

/- What is read are names of the text, in order. -/
theorem sublist_of_read
    {src : Bytes}
    {entries : List Entry}
    (hRead : read src = .ok entries) :
    (entries.map Entry.token).Sublist
      ((tokens src).map Lexed.token) := by
  rcases read_eq_ok_iff.mp hRead with
    ⟨_, ts, eof, accepted, hWritten, _, hRuns, rfl⟩
  rcases hRuns.exists_names with ⟨names, hNames, hSub⟩
  have hAll : accepted.reverse.map Entry.token = names := hNames
  have hFront : ts.Sublist (written src) := by
    rw [hWritten]
    exact List.sublist_append_left ts [eof]
  rw [hAll]
  exact (hSub.trans hFront).trans List.filter_sublist

/- The name of an entry stands in the text at its offset. -/
theorem standsIn_of_read
    {src : Bytes}
    {entries : List Entry}
    {e : Entry}
    (hRead : read src = .ok entries)
    (hMem : e ∈ entries) :
    StandsIn src e.token := by
  have hToken : e.token ∈ entries.map Entry.token :=
    List.mem_map_of_mem hMem
  exact standsIn_of_mem_tokens
    ((sublist_of_read hRead).subset hToken) rfl

/- Entries come in the order of the text. -/
theorem pairwise_offset_of_read
    {src : Bytes}
    {entries : List Entry}
    (hRead : read src = .ok entries) :
    entries.Pairwise fun e e' => e.offset < e'.offset := by
  have hNames :=
    (pairwise_names src).sublist (sublist_of_read hRead)
  refine (List.pairwise_map.mp hNames).imp ?_
  intro e e' hLess
  exact hLess rfl rfl

------------------------------------------------------------
-- Errors
------------------------------------------------------------

/- Where a stream ends. -/
def Ending.offset : Ending → Nat
  | .finished offset => offset
  | .fault f => f.offset

/- The stream stays within the first bytes of a text. -/
structure Stream.Within
    (n : Nat)
    (s : Stream) : Prop where
  tokens : ∀ t ∈ s.tokens, t.offset ≤ n
  ending : s.ending.offset ≤ n

theorem Stream.within_ofLexed
    {n : Nat}
    {ts : List Lexed}
    (hFaults : ∀ t ∈ ts, Fault.AllWithin n t.faults)
    (hTokens :
      ∀ t ∈ ts,
        t.token.isImplied = false → t.token.offset ≤ n) :
    (Stream.ofLexed ts).Within n := by
  fun_induction Stream.ofLexed ts with
  | case1 => exact ⟨by simp, Nat.zero_le n⟩
  | case2 t ts f faults hHead =>
      refine ⟨by simp, ?_⟩
      exact hFaults t (by simp) f (by simp [hHead])
  | case3 t ts hHead hEof =>
      refine ⟨by simp, ?_⟩
      exact hTokens t (by simp) (by simp [Token.isImplied, hEof])
  | case4 t ts hHead hEof s hSkip ih =>
      exact ih (fun u hu => hFaults u (by simp [hu]))
        (fun u hu => hTokens u (by simp [hu]))
  | case5 t ts hHead hEof s hKeep ih =>
      have hRest := ih (fun u hu => hFaults u (by simp [hu]))
        (fun u hu => hTokens u (by simp [hu]))
      have hWritten : t.token.isImplied = false := by
        rw [Bool.not_eq_true, Bool.or_eq_false_iff] at hKeep
        exact hKeep.2
      refine ⟨?_, hRest.ending⟩
      intro u hMem
      rcases List.mem_cons.mp hMem with rfl | hTail
      · exact hTokens t (by simp) hWritten
      · exact hRest.tokens u hTail

theorem offset_le_of_readFrom
    {n : Nat}
    {ending : Ending}
    {s : State}
    {ts : List Token}
    {e : Error}
    (hTokens : ∀ t ∈ ts, t.offset ≤ n)
    (hEnding : ending.offset ≤ n)
    (hRead : readFrom ending s ts = .error e) :
    e.offset ≤ n := by
  induction ts generalizing s with
  | nil =>
      unfold readFrom at hRead
      cases ending with
      | fault f =>
          cases hRead
          exact hEnding
      | finished offset =>
          simp only at hRead
          split at hRead
          · cases hRead
          · split at hRead
            · cases hRead
              exact hEnding
            · cases hRead
  | cons t ts ih =>
      unfold readFrom at hRead
      split at hRead
      · exact ih (fun u hu => hTokens u (by simp [hu])) hRead
      · cases hRead
        exact hTokens t (by simp)

/- An error stands in the text or at its end. -/
theorem offset_le_of_read
    {src : Bytes}
    {e : Error}
    (hRead : read src = .error e) :
    e.offset ≤ src.length := by
  have hWithin : (Stream.ofText src).Within src.length :=
    Stream.within_ofLexed
      (fun _ hMem => allWithin_of_mem_tokens hMem)
      (fun _ hMem => offset_le_of_mem_tokens hMem)
  exact offset_le_of_readFrom hWithin.tokens hWithin.ending hRead

end Arguments

end Namesake
