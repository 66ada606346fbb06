import Namesake.Proofs.Source.Trails
import Namesake.Source.File

/-
  Where doc comments come from.  The comments that lead a
  declaration are comment tokens of the text, and the lines of
  the doc comment are those of the tokens, each with the
  position of its token.

  Main declarations:
    * `Source.Parser.Returns`
    * `Source.Parser.HoldsDoc`
    * `Source.Parser.returns_file`
    * `Source.File.exists_tree_of_parse`
    * `Source.File.exists_token_of_parse`
-/

namespace Namesake

namespace Source

namespace Parser

variable {i : Input} {α β : Type}

------------------------------------------------------------
-- What Parsers Return
------------------------------------------------------------

/- What the parser returns, if anything, satisfies the property. -/
def Returns
    (P : α → Prop)
    (p : Parser i α) : Prop :=
  ∀ s a s', p s = .ok a s' → P a

namespace Returns

variable {P : β → Prop}

theorem pure
    {b : β}
    (h : P b) :
    Returns P (Pure.pure b : Parser i β) := by
  intro s a s' hRun
  cases hRun
  exact h

/- The second parser may rely on what the first returns. -/
theorem bind
    {Q : α → Prop}
    {p : Parser i α}
    {f : α → Parser i β}
    (hFirst : Returns Q p)
    (hNext : ∀ a, Q a → Returns P (f a)) :
    Returns P (p >>= f) := by
  intro s b s' hRun
  rcases exists_of_bind hRun with ⟨a, s₁, hHere, hLater⟩
  exact hNext a (hFirst s a s₁ hHere) s₁ b s' hLater

/- Nothing need be known of what comes first. -/
theorem after
    {p : Parser i α}
    {f : α → Parser i β}
    (hNext : ∀ a, Returns P (f a)) :
    Returns P (p >>= f) :=
  bind (Q := fun _ => True) (fun _ _ _ _ => trivial)
    fun a _ => hNext a

end Returns

------------------------------------------------------------
-- Doc Comments
------------------------------------------------------------

/- The comments of a group are comments of the text. -/
def HoldsDoc
    (i : Input)
    (doc : Option CommentGroup) : Prop :=
  ∀ c ∈ doc.getD [], i.Holds c

theorem holdsDoc_none :
    HoldsDoc i none := by
  intro c hMem
  cases hMem

/- The state keeps comments of the text only. -/
theorem returns_leadDoc :
    Returns (HoldsDoc i) (leadDoc : Parser i _) := by
  refine Returns.after fun s => Returns.pure ?_
  intro c hMem
  cases hLead : s.leadComment with
  | none =>
      rw [hLead] at hMem
      cases hMem
  | some g =>
      rw [hLead] at hMem
      rcases List.mem_map.mp hMem with ⟨c', _, rfl⟩
      exact c'.property

/- The doc comment is taken first and returned in both forms. -/
theorem returns_genDecl
    (g : Grammar i)
    (keyword : TokenKind) :
    Returns (fun d => HoldsDoc i d.doc) (genDecl g keyword) := by
  refine Returns.bind returns_leadDoc fun doc hDoc => ?_
  refine Returns.after fun p => Returns.after fun paren => ?_
  split
  · refine Returns.after fun lparen => ?_
    refine Returns.after fun _ => Returns.after fun specs => ?_
    refine Returns.after fun rparen => Returns.after fun _ => ?_
    exact Returns.pure hDoc
  · exact Returns.after fun s => Returns.pure hDoc

/- A function returns it on all of its paths, too. -/
theorem returns_funcDecl
    (g : Grammar i) :
    Returns (fun d => HoldsDoc i d.doc) (funcDecl g) := by
  refine Returns.bind returns_leadDoc fun doc hDoc => ?_
  -- every path ends with the doc comment that was taken first
  repeat' first
    | exact Returns.pure hDoc
    | refine Returns.after fun _ => ?_
    | split

/- What is no declaration has no doc comment. -/
theorem returns_topDecl
    (g : Grammar i) :
    Returns (fun d => HoldsDoc i d.doc) (topDecl g) := by
  have hGen
      (keyword : TokenKind) :
      Returns (fun d => HoldsDoc i d.doc)
        (do return TopDecl.gen (← genDecl g keyword)) :=
    Returns.bind (returns_genDecl g keyword)
      fun d hDoc => Returns.pure hDoc
  refine Returns.after fun k => ?_
  split
  · exact hGen _
  · exact hGen _
  · exact hGen _
  · exact hGen _
  · exact Returns.bind (returns_funcDecl g)
      fun d hDoc => Returns.pure hDoc
  · refine Returns.after fun p => Returns.after fun _ => ?_
    refine Returns.after fun _ => Returns.after fun stop => ?_
    exact Returns.pure holdsDoc_none

/- By induction on the fuel, one declaration after the other. -/
theorem returns_topDecls
    (g : Grammar i)
    (fuel : Nat)
    (last : TokenKind) :
    Returns (fun ds => ∀ d ∈ ds, HoldsDoc i d.doc)
      (topDecls g fuel last) := by
  induction fuel generalizing last with
  | zero => exact Returns.pure (List.forall_mem_nil _)
  | succ fuel ih =>
      refine Returns.after fun k => ?_
      have hRest :
          Returns (fun ds => ∀ d ∈ ds, HoldsDoc i d.doc)
            (do
              let d ← topDecl g
              return d :: (← topDecls g fuel k)) :=
        Returns.bind (returns_topDecl g) fun d hDoc =>
          Returns.bind (ih k) fun ds hDocs =>
            Returns.pure (List.forall_mem_cons.mpr ⟨hDoc, hDocs⟩)
      split
      · exact Returns.pure (List.forall_mem_nil _)
      · simp only
        split
        · exact Returns.after fun _ => Returns.after fun _ => hRest
        · exact hRest

/- The doc comments of a file are comments of its text. -/
theorem returns_file :
    Returns
      (fun tree =>
        ∀ t, tree = some t → ∀ d ∈ t.decls, HoldsDoc i d.doc)
      (file : Parser i _) := by
  have hNone :
      ∀ t, (none : Option Tree) = some t →
        ∀ d ∈ t.decls, HoldsDoc i d.doc := by
    intro t hSome
    cases hSome
  refine Returns.after fun _ => Returns.after fun s => ?_
  split
  · refine Returns.after fun doc => Returns.after fun package => ?_
    refine Returns.after fun name => Returns.after fun _ => ?_
    refine Returns.after fun s => ?_
    split
    · refine Returns.after fun depth => ?_
      refine Returns.after fun fuel => ?_
      refine Returns.bind (returns_topDecls _ _ _) ?_
      intro decls hDocs
      refine Returns.after fun s => Returns.pure ?_
      intro t hSome
      cases hSome
      exact hDocs
    · exact Returns.pure hNone
  · exact Returns.pure hNone

end Parser

------------------------------------------------------------
-- Files
------------------------------------------------------------

/- A comment of the text was one of its tokens. -/
theorem exists_token_of_readTokens
    {src : Bytes}
    {tokens : List Scanner.Lexed}
    {tree : Tree}
    {d : TopDecl}
    {c : Comment}
    (hRead : (readTokens src tokens).1 = some tree)
    (hDecl : d ∈ tree.decls)
    (hDoc : c ∈ d.doc.getD []) :
    ∃ t ∈ tokens, t.token = ⟨.comment, c.pos, c.text⟩ := by
  unfold readTokens at hRead
  simp only at hRead
  split at hRead
  · rename_i result s hRun
    exact Parser.returns_file _ _ _ hRun tree hRead d hDecl c hDoc
  · cases hRead

namespace File

/- A file that is read is made of the tree of its text. -/
theorem exists_tree_of_parse
    {path src : Bytes}
    {f : File}
    (h : parse path src = .ok f) :
    ∃ tree,
      (Source.parse path src).tree = some tree ∧
        f = ofTree path src (Source.parse path src).lines tree := by
  unfold parse at h
  simp only at h
  split at h
  · rename_i tree hTree _
    cases h
    exact ⟨tree, hTree, rfl⟩
  · cases h

/- What is computed of a file that is read is so of that file. -/
theorem exists_of_map_parse
    {α : Type}
    {path src : Bytes}
    {view : File → α}
    {a : α}
    (h : (parse path src).map view = .ok a) :
    ∃ f, parse path src = .ok f ∧ view f = a := by
  cases hParse : parse path src with
  | error e =>
      rw [hParse] at h
      cases h
  | ok f =>
      rw [hParse] at h
      exact ⟨f, rfl, Except.ok.inj h⟩

/- Every item comes from a declaration, with its doc comment. -/
theorem mem_itemsFrom
    {src : Bytes}
    {lines : Lines}
    {comments : List Comment}
    {gap : Gap}
    {decls : List TopDecl}
    {item : Item}
    (h : item ∈ itemsFrom src lines comments gap decls) :
    ∃ d ∈ decls, item.doc = docLines lines d.doc := by
  induction decls generalizing gap with
  | nil => cases h
  | cons d decls ih =>
      rcases List.mem_cons.mp h with rfl | h
      · exact ⟨d, List.mem_cons_self, rfl⟩
      · rcases ih h with ⟨d', hMem, hDoc⟩
        exact ⟨d', List.mem_cons_of_mem d hMem, hDoc⟩

/- The line of a doc comment is a comment token of the text. -/
theorem exists_token_of_parse
    {path src : Bytes}
    {f : File}
    {item : Item}
    {line : DocLine}
    (hParse : parse path src = .ok f)
    (hItem : item ∈ f.items)
    (hLine : line ∈ item.doc) :
    ∃ t ∈ Scanner.tokens src,
      t.token.kind = .comment ∧ line.text = t.token.text ∧
        line.position =
          (Source.parse path src).lines.position
            t.token.offset := by
  rcases exists_tree_of_parse hParse with ⟨tree, hTree, rfl⟩
  rcases mem_itemsFrom hItem with ⟨d, hDecl, hDoc⟩
  rw [hDoc] at hLine
  rcases List.mem_map.mp hLine with ⟨c, hMem, rfl⟩
  rcases exists_token_of_readTokens hTree hDecl hMem with
    ⟨t, hToken, hEq⟩
  exact ⟨t, hToken, by rw [hEq], by rw [hEq], by rw [hEq]⟩

/- A site is an item in which a directive was found. -/
theorem mem_items_of_mem_sites
    {f : File}
    {name : Bytes}
    {site : Site}
    (h : site ∈ (f.sites name).1) :
    site.item ∈ f.items ∧
      Directive.find name site.item.doc =
        .ok (some site.directive) := by
  unfold sites at h
  generalize f.items = items at h ⊢
  generalize 0 = index at h
  induction items generalizing index with
  | nil => cases h
  | cons item items ih =>
      have hLater
          (h : site ∈ (sitesFrom name (index + 1) items).1) :=
        (ih (index + 1) h).imp_left
          (List.mem_cons_of_mem item)
      simp only [sitesFrom] at h
      cases hFind : Directive.find name item.doc with
      | error d =>
          rw [hFind] at h
          exact hLater h
      | ok found =>
          rw [hFind] at h
          cases found with
          | none => exact hLater h
          | some d =>
              rcases List.mem_cons.mp h with rfl | h
              · exact ⟨List.mem_cons_self, hFind⟩
              · exact hLater h

end File

end Source

end Namesake
