import Namesake.Source.Parser.File

/-
  What all parsers of the grammar keep.  A relation between
  states that holds along bookkeeping and along taking a token
  holds from the beginning of every parser to its end, so that
  no property of the state has to be followed through the
  grammar more than once.

  Main declarations:
    * `Source.Parser.Quiet`
    * `Source.Parser.IsTrail`
    * `Source.Parser.Follows`
    * `Source.Parser.follows_grammar`
    * `Source.Parser.follows_file`
-/

namespace Namesake

namespace Source

namespace Parser

-- a parser is a long chain of binds, and a search goes along it
set_option synthInstance.maxSize 4000

variable {i : Input} {α β : Type}

------------------------------------------------------------
-- Trails
------------------------------------------------------------

/- A run of two parsers is a run of each of them. -/
theorem exists_of_bind
    {p : Parser i α}
    {f : α → Parser i β}
    {s t : State i}
    {b : β}
    (h : (p >>= f) s = .ok b t) :
    ∃ a s₁, p s = .ok a s₁ ∧ f a s₁ = .ok b t := by
  simp only [Bind.bind, EStateM.bind] at h
  cases hFirst : p s with
  | ok a s₁ =>
      rw [hFirst] at h
      exact ⟨a, s₁, rfl, h⟩
  | error e s₁ =>
      rw [hFirst] at h
      cases h

/-
  Only errors, nesting and the places at which to go on may
  differ.
-/
structure Quiet
    (s t : State i) : Prop where
  rest : t.rest = s.rest
  token : t.token = s.token
  tokenStop : t.tokenStop = s.tokenStop
  started : t.started = s.started
  comments : t.comments = s.comments
  leadComment : t.leadComment = s.leadComment
  lineComment : t.lineComment = s.lineComment

theorem Quiet.refl
    (s : State i) :
    Quiet s s :=
  ⟨rfl, rfl, rfl, rfl, rfl, rfl, rfl⟩

/- A relation that composes and holds along quiet changes. -/
class IsPath
    (R : State i → State i → Prop) : Prop where
  trans : ∀ {s t u}, R s t → R t u → R s u
  quiet : ∀ {s t}, Quiet s t → R s t

/- It also holds along taking a token. -/
class IsTrail
    (R : State i → State i → Prop) : Prop extends IsPath R where
  advance : ∀ {s t}, advance s = .ok () t → R s t

/- The relation holds along every run of the parser. -/
class Follows
    (R : State i → State i → Prop)
    (p : Parser i α) : Prop where
  follows : ∀ {s a t}, p s = .ok a t → R s t

/- The relation holds along the run from one state. -/
def FollowsFrom
    (R : State i → State i → Prop)
    (s : State i)
    (p : Parser i α) : Prop :=
  ∀ a t, p s = .ok a t → R s t

variable {R : State i → State i → Prop}

/- It holds along the run from each state in particular. -/
theorem Follows.from
    {p : Parser i α}
    [Follows R p]
    (s : State i) :
    FollowsFrom R s p :=
  fun _ _ => Follows.follows

/-
  A parser that looks at its state first may be judged from
  each state by itself.
-/
theorem follows_of_get
    {f : State i → Parser i α}
    (h : ∀ s, FollowsFrom R s (f s)) :
    Follows R (get >>= f) where
  follows hRun := h _ _ _ hRun

/- Setting a state leads from the current one to it. -/
theorem followsFrom_set
    {s t : State i}
    (h : R s t) :
    FollowsFrom R s (set t : Parser i PUnit) := by
  intro a u hRun
  cases hRun
  exact h

/- A change leads from each state to its image. -/
theorem follows_modify
    {f : State i → State i}
    (h : ∀ s, R s (f s)) :
    Follows R (modify f : Parser i PUnit) where
  follows {s a t} hRun := by
    cases hRun
    exact h s

section

variable [IsPath R]

------------------------------------------------------------
-- Steps
------------------------------------------------------------

instance
    (a : α) :
    Follows R (Pure.pure a : Parser i α) where
  follows h := by
    cases h
    exact IsPath.quiet (Quiet.refl _)

instance :
    Follows R (get : Parser i (State i)) where
  follows h := by
    cases h
    exact IsPath.quiet (Quiet.refl _)

instance
    {p : Parser i α}
    {f : α → Parser i β}
    [Follows R p]
    [∀ a, Follows R (f a)] :
    Follows R (p >>= f) where
  follows h := by
    rcases exists_of_bind h with ⟨a, s₁, hFirst, hNext⟩
    exact IsPath.trans (Follows.follows hFirst)
      (Follows.follows hNext)

/- What comes second may depend on the result of the first. -/
theorem Follows.step
    {p : Parser i α}
    {f : α → Parser i β}
    [Follows R p]
    (h : ∀ a, Follows R (f a)) :
    Follows R (p >>= f) :=
  inferInstance

instance
    {c : Prop}
    [Decidable c]
    {p q : Parser i α}
    [Follows R p]
    [Follows R q] :
    Follows R (if c then p else q) := by
  split <;> infer_instance

/- A chain of parsers over a list, by induction on the list. -/
theorem follows_mapM
    {xs : List α}
    {f : α → Parser i β}
    (h : ∀ x, Follows R (f x)) :
    Follows R (xs.mapM f) := by
  induction xs with
  | nil =>
      rw [List.mapM_nil]
      infer_instance
  | cons x xs ih =>
      rw [List.mapM_cons]
      infer_instance

instance
    {c : Prop}
    [Decidable c]
    {p : c → Parser i α}
    {q : ¬ c → Parser i α}
    [∀ h, Follows R (p h)]
    [∀ h, Follows R (q h)] :
    Follows R (if h : c then p h else q h) := by
  split <;> infer_instance

/- Behind the first parser the state is unknown again. -/
theorem FollowsFrom.bind
    {s : State i}
    {p : Parser i α}
    {f : α → Parser i β}
    (hFirst : FollowsFrom R s p)
    (hNext : ∀ a, Follows R (f a)) :
    FollowsFrom R s (p >>= f) := by
  intro b t h
  rcases exists_of_bind h with ⟨a, s₁, hRun, hLater⟩
  exact IsPath.trans (hFirst a s₁ hRun)
    ((hNext a).follows hLater)

instance
    (level : State i → Int) :
    Follows R
      (modify fun s => { s with level := level s } :
        Parser i Unit) :=
  follows_modify fun _ =>
    IsPath.quiet ⟨rfl, rfl, rfl, rfl, rfl, rfl, rfl⟩

instance
    (inRhs : State i → Bool) :
    Follows R
      (modify fun s => { s with inRhs := inRhs s } :
        Parser i Unit) :=
  follows_modify fun _ =>
    IsPath.quiet ⟨rfl, rfl, rfl, rfl, rfl, rfl, rfl⟩

instance :
    Follows R (kind : Parser i _) := by
  unfold kind
  infer_instance

instance :
    Follows R (offset : Parser i _) := by
  unfold offset
  infer_instance

instance
    (k : TokenKind) :
    Follows R (at? k : Parser i _) := by
  unfold at?
  infer_instance

instance :
    Follows R (budget : Parser i _) := by
  unfold budget
  infer_instance

end

variable [IsTrail R]

------------------------------------------------------------
-- Moves
------------------------------------------------------------

variable (k : TokenKind) (context : String) (fuel at₀ : Nat)

section

variable {test : Parser i Bool} {body : Parser i α}
variable [Follows R test] [Follows R body]

instance :
    Follows R (repeatWhile test body fuel) := by
  induction fuel with
  | zero => exact inferInstanceAs (Follows R (pure _))
  | succ fuel ih =>
      unfold repeatWhile
      infer_instance

instance :
    Follows R (many test body) := by
  unfold many
  infer_instance

end

instance
    (message : Bytes) :
    Follows R (complain at₀ message : Parser i _) := by
  unfold complain
  refine follows_of_get fun s => ?_
  have hSet
      (errors : List Complaint) :
      FollowsFrom R s
        (set { s with errors } : Parser i PUnit) :=
    followsFrom_set
      (IsPath.quiet ⟨rfl, rfl, rfl, rfl, rfl, rfl, rfl⟩)
  split
  · exact hSet _
  · split
    · exact Follows.from s
    · split
      · intro a t hRun
        cases hRun
      · exact hSet _

instance
    (what : Bytes) :
    Follows R (complainExpected at₀ what : Parser i _) := by
  unfold complainExpected
  infer_instance

instance :
    Follows R (advance : Parser i _) :=
  ⟨IsTrail.advance⟩

instance :
    Follows R (leadDoc : Parser i _) := by
  unfold leadDoc
  infer_instance

instance :
    Follows R (lineDoc : Parser i _) := by
  unfold lineDoc
  infer_instance

instance :
    Follows R (expect k : Parser i _) := by
  unfold expect
  infer_instance

instance :
    Follows R (expect? k : Parser i _) := by
  unfold expect?
  infer_instance

instance :
    Follows R (expectClosing k context : Parser i _) := by
  unfold expectClosing
  infer_instance

instance :
    Follows R (atComma context k : Parser i _) := by
  unfold atComma
  infer_instance

instance
    (targets : List TokenKind) :
    Follows R (skipToFuel targets fuel : Parser i _) := by
  induction fuel with
  | zero => exact inferInstanceAs (Follows R (pure _))
  | succ fuel ih =>
      unfold skipToFuel
      refine follows_of_get fun s => ?_
      have hSet
          (syncOffset : Option Nat)
          (syncCount : Nat) :
          FollowsFrom R s
            (set { s with syncOffset, syncCount } :
              Parser i PUnit) :=
        followsFrom_set
          (IsPath.quiet ⟨rfl, rfl, rfl, rfl, rfl, rfl, rfl⟩)
      -- the place to go on is kept, or a token is taken
      split
      · exact Follows.from s
      · split
        · split
          all_goals
            simp only
            split
            · exact hSet _ _
            · split
              · exact hSet _ _
              · exact Follows.from s
        · exact Follows.from s

instance
    (targets : List TokenKind) :
    Follows R (skipTo targets : Parser i _) := by
  unfold skipTo
  infer_instance

instance :
    Follows R (expectSemi : Parser i _) := by
  unfold expectSemi
  infer_instance

instance :
    Follows R (ident : Parser i _) := by
  unfold ident
  infer_instance

section

variable {p : Parser i α} [Follows R p]

instance :
    Follows R (nested p) := by
  unfold nested
  infer_instance

instance
    (inRhs : Bool) :
    Follows R (withRhs inRhs p) := by
  unfold withRhs
  infer_instance

instance follows_inHeader :
    Follows R (inHeader p) := by
  unfold inHeader
  infer_instance

end

------------------------------------------------------------
-- Records of Parsers
------------------------------------------------------------

/- All parsers of the record follow the relation. -/
class Grammar.Follows
    (R : State i → State i → Prop)
    (g : Grammar i) : Prop where
  binary : ∀ least, Parser.Follows R (g.binary least)
  unary : Parser.Follows R g.unary
  type? : Parser.Follows R g.type?
  literalValue : ∀ t, Parser.Follows R (g.literalValue t)
  stmt : Parser.Follows R g.stmt
  ifStmt : Parser.Follows R g.ifStmt

attribute [instance]
  Grammar.Follows.binary
  Grammar.Follows.unary
  Grammar.Follows.type?
  Grammar.Follows.literalValue
  Grammar.Follows.stmt
  Grammar.Follows.ifStmt

variable (g : Grammar i) [Grammar.Follows R g]

instance :
    Follows R g.expr := by
  unfold Grammar.expr
  infer_instance

instance :
    Follows R g.rhs := by
  unfold Grammar.rhs
  infer_instance

instance :
    Follows R g.exprList := by
  unfold Grammar.exprList
  infer_instance

instance :
    Follows R g.type := by
  unfold Grammar.type
  refine Follows.step fun t => ?_
  cases t <;> infer_instance

------------------------------------------------------------
-- Types
------------------------------------------------------------

variable (x : Expr) (x? : Option Expr) (name : Ident)

instance
    (name? : Option Ident) :
    Follows R (typeName name? : Parser i _) := by
  unfold typeName
  cases name? <;> infer_instance

instance :
    Follows R (typeArguments g fuel) := by
  induction fuel with
  | zero => exact inferInstanceAs (Follows R (pure _))
  | succ fuel ih =>
      unfold typeArguments
      infer_instance

instance :
    Follows R (typeInstance g x) := by
  unfold typeInstance
  infer_instance

instance
    (name? : Option Ident) :
    Follows R (qualified g name?) := by
  unfold qualified
  infer_instance

instance
    (lbrack : Nat) :
    Follows R (arrayType g lbrack x?) := by
  unfold arrayType
  cases x? <;> infer_instance

instance :
    Follows R (bracketed g fuel) := by
  induction fuel with
  | zero => exact inferInstanceAs (Follows R (pure _))
  | succ fuel ih =>
      unfold bracketed
      infer_instance

instance :
    Follows R (arrayOrInstance g name) := by
  unfold arrayOrInstance
  refine Follows.step fun lbrack => Follows.step fun closes => ?_
  split
  all_goals
    refine Follows.step fun r => Follows.step fun rbrack => ?_
    rcases r with ⟨_ | ⟨len, _ | _⟩, trailing⟩
    · infer_instance
    · refine Follows.step fun elt => ?_
      cases elt <;> cases trailing <;> infer_instance
    · infer_instance

instance :
    Follows R (term g) := by
  unfold term
  refine Follows.step fun isTilde => ?_
  split
  · infer_instance
  · refine Follows.step fun t => ?_
    cases t <;> infer_instance

instance :
    Follows R (moreTerms g x fuel) := by
  induction fuel generalizing x with
  | zero => exact inferInstanceAs (Follows R (pure _))
  | succ fuel ih =>
      unfold moreTerms
      infer_instance

instance :
    Follows R (typeSet g x?) := by
  unfold typeSet
  cases x? <;> infer_instance

instance :
    Follows R (variadic g) := by
  unfold variadic
  infer_instance

instance
    (typeSets : Bool)
    (p : Param) :
    Follows R (withTypeSet g typeSets p) := by
  unfold withTypeSet
  cases p.type <;> infer_instance

instance
    (typeSets : Bool) :
    Follows R (namedParam g typeSets name) := by
  unfold namedParam
  refine Follows.step fun k => ?_
  split <;> infer_instance

instance
    (name? : Option Ident)
    (typeSets : Bool) :
    Follows R (param g name? typeSets) := by
  unfold param
  cases name? with
  | some name => infer_instance
  | none =>
      refine Follows.step fun k => ?_
      split <;> infer_instance

instance
    (given : Option Param) :
    Follows R (paramList g k fuel given) := by
  induction fuel generalizing given with
  | zero => exact inferInstanceAs (Follows R (pure _))
  | succ fuel ih =>
      unfold paramList
      rcases given with _ | ⟨_, _ | _⟩ <;> infer_instance

instance
    (start : Nat)
    (typeParams : Bool)
    (ps : List Param) :
    Follows R (checkParams start typeParams ps : Parser i _) := by
  unfold checkParams
  simp only
  split <;> infer_instance

instance
    (allowed : Bool)
    (ps : List Param) :
    Follows R (checkVariadic allowed ps : Parser i _) := by
  unfold checkVariadic
  refine follows_mapM fun p => ?_
  rcases p with ⟨⟨name, _ | t⟩, index⟩
  · infer_instance
  · simp only
    split <;> infer_instance

instance
    (given : Option Param)
    (variadic : Bool) :
    Follows R (paramFields g given k variadic) := by
  unfold paramFields
  infer_instance

instance
    (variadic : Bool) :
    Follows R (params g variadic) := by
  unfold params
  infer_instance

instance :
    Follows R (typeParams g) := by
  unfold typeParams
  infer_instance

instance :
    Follows R (results g) := by
  unfold results
  refine Follows.step fun isOpen => ?_
  split
  · infer_instance
  · refine Follows.step fun t => ?_
    cases t <;> infer_instance

instance :
    Follows R (signature g) := by
  unfold signature
  refine Follows.step fun p => Follows.step fun isOpen => ?_
  split
  · refine Follows.step fun tps => ?_
    cases tps <;> infer_instance
  · infer_instance

instance :
    Follows R (moreNames : Parser i _) := by
  unfold moreNames
  infer_instance

instance :
    Follows R (optionalParen : Parser i _) := by
  unfold optionalParen
  infer_instance

instance :
    Follows R (fieldCore g) := by
  unfold fieldCore
  refine Follows.step fun k => ?_
  split
  · refine Follows.step fun name => Follows.step fun k => ?_
    split <;> infer_instance
  all_goals infer_instance

instance :
    Follows R (literal : Parser i _) := by
  unfold literal
  infer_instance

instance :
    Follows R (structField g) := by
  unfold structField
  infer_instance

instance :
    Follows R (structType g) := by
  unfold structType
  infer_instance

instance :
    Follows R (methodSignature g) := by
  unfold methodSignature
  infer_instance

instance :
    Follows R (methodCore g) := by
  unfold methodCore
  refine Follows.step fun x => Follows.step fun k => ?_
  split
  · refine Follows.step fun lbrack => ?_
    refine Follows.step fun _ => Follows.step fun arg => ?_
    refine Follows.step fun k => ?_
    split <;> infer_instance
  all_goals infer_instance

instance :
    Follows R (element g) := by
  unfold element
  refine Follows.step fun k => ?_
  split
  · infer_instance
  · infer_instance
  · refine Follows.step fun t => ?_
    cases t <;> infer_instance

instance :
    Follows R (elements g fuel) := by
  induction fuel with
  | zero => exact inferInstanceAs (Follows R (pure _))
  | succ fuel ih =>
      unfold elements
      refine Follows.step fun f => ?_
      cases f <;> infer_instance

instance :
    Follows R (interfaceType g) := by
  unfold interfaceType
  infer_instance

instance :
    Follows R (mapType g) := by
  unfold mapType
  infer_instance

instance :
    Follows R (chanType g) := by
  unfold chanType
  infer_instance

instance :
    Follows R (tryType g) := by
  unfold tryType
  refine Follows.step fun k => ?_
  split <;> infer_instance

------------------------------------------------------------
-- Expressions
------------------------------------------------------------

instance :
    Follows R (stmtList g) := by
  unfold stmtList
  infer_instance

instance :
    Follows R (block g) := by
  unfold block
  infer_instance

instance :
    Follows R (funcTypeOrLit g) := by
  unfold funcTypeOrLit
  infer_instance

instance :
    Follows R (operand g) := by
  unfold operand
  refine Follows.step fun k => ?_
  split
  all_goals try infer_instance
  refine Follows.step fun t => ?_
  cases t <;> infer_instance

instance :
    Follows R (elementValue g) := by
  unfold elementValue
  infer_instance

instance :
    Follows R (elementExpr g) := by
  unfold elementExpr
  infer_instance

instance :
    Follows R (elementList g fuel) := by
  induction fuel with
  | zero => exact inferInstanceAs (Follows R (pure _))
  | succ fuel ih =>
      unfold elementList
      infer_instance

instance :
    Follows R (compositeBody g x?) := by
  unfold compositeBody
  infer_instance

instance :
    Follows R (typeAssertion g x) := by
  unfold typeAssertion
  infer_instance

instance :
    Follows R (selection g x) := by
  unfold selection
  refine Follows.step fun k => ?_
  split <;> infer_instance

instance :
    Follows R (sliceIndices g fuel) := by
  induction fuel with
  | zero => exact inferInstanceAs (Follows R (pure _))
  | succ fuel ih =>
      unfold sliceIndices
      infer_instance

instance :
    Follows R (moreArguments g fuel) := by
  induction fuel with
  | zero => exact inferInstanceAs (Follows R (pure _))
  | succ fuel ih =>
      unfold moreArguments
      infer_instance

instance :
    Follows R (indexOrSlice g x) := by
  unfold indexOrSlice
  refine Follows.step fun lbrack => Follows.step fun isEmpty => ?_
  extract_lets next
  have hNext (first : Option Expr) : Follows R (next first) := by
    refine Follows.step fun slices => Follows.step fun comma => ?_
    extract_lets _ last
    have hLast (args : List Expr) : Follows R (last args) := by
      refine Follows.step fun _ => Follows.step fun rbrack => ?_
      split <;> infer_instance
    split <;> infer_instance
  split <;> infer_instance

instance :
    Follows R (arguments g fuel) := by
  induction fuel with
  | zero => exact inferInstanceAs (Follows R (pure _))
  | succ fuel ih =>
      unfold arguments
      infer_instance

instance :
    Follows R (callTail g x) := by
  unfold callTail
  infer_instance

instance :
    Follows R (primaryTail g x fuel) := by
  induction fuel generalizing x with
  | zero => exact inferInstanceAs (Follows R (pure _))
  | succ fuel ih =>
      unfold primaryTail
      refine Follows.step fun k => ?_
      split <;> infer_instance

instance :
    Follows R (primary g x?) := by
  unfold primary
  cases x? <;> infer_instance

instance
    (arrow : Nat) :
    Follows R (receiveType arrow x : Parser i _) := by
  fun_induction receiveType arrow x with
  | case1 arrow _ old value jp ih =>
      refine Follows.step fun _ => ?_
      simp only [jp]
      split
      · split <;> infer_instance
      · infer_instance
  | case2 arrow _ old dir value jp _ ih =>
      simp only [jp]
      split
      · split <;> infer_instance
      · infer_instance
  | case3 => infer_instance

instance :
    Follows R (unaryExpr g) := by
  unfold unaryExpr
  refine Follows.step fun op => Follows.step fun p => ?_
  split
  all_goals try infer_instance
  refine Follows.step fun _ => Follows.step fun x => ?_
  split <;> infer_instance

instance :
    Follows R (currentOperator : Parser i _) := by
  unfold currentOperator
  infer_instance

instance
    (least : Nat) :
    Follows R (binaryTail g least x fuel) := by
  induction fuel generalizing x with
  | zero => exact inferInstanceAs (Follows R (pure _))
  | succ fuel ih =>
      unfold binaryTail
      infer_instance

instance
    (least : Nat) :
    Follows R (binaryExpr g least) := by
  unfold binaryExpr
  infer_instance

------------------------------------------------------------
-- Declarations
------------------------------------------------------------

variable (doc : Option CommentGroup)

instance :
    Follows R (importSpec doc : Parser i _) := by
  unfold importSpec
  refine Follows.step fun k => ?_
  split <;> infer_instance

instance :
    Follows R (values g) := by
  unfold values
  infer_instance

instance :
    Follows R (valueSpec g k doc) := by
  unfold valueSpec
  infer_instance

instance :
    Follows R (aliasedType g) := by
  unfold aliasedType
  infer_instance

instance :
    Follows R (bracketedType g) := by
  unfold bracketedType
  refine Follows.step fun lbrack => Follows.step fun _ => ?_
  refine Follows.step fun isName => ?_
  split
  · refine Follows.step fun id => Follows.step fun isOpen => ?_
    extract_lets next
    have hNext (x : Expr) : Follows R (next x) := by
      refine Follows.step fun comma => Follows.step fun closes => ?_
      split
      · split <;> infer_instance
      · infer_instance
    split <;> infer_instance
  · infer_instance

instance :
    Follows R (typeSpec g doc) := by
  unfold typeSpec
  infer_instance

instance :
    Follows R (spec g k doc) := by
  unfold spec
  split <;> infer_instance

instance :
    Follows R (genDecl g k) := by
  unfold genDecl
  infer_instance

------------------------------------------------------------
-- Statements
------------------------------------------------------------

instance
    (mode : StmtMode) :
    Follows R (simpleStmt g mode) := by
  unfold simpleStmt
  refine Follows.step fun xs => Follows.step fun op => ?_
  refine Follows.step fun p => ?_
  split
  · infer_instance
  · simp only
    split
    · refine Follows.step fun _ => ?_
      split
      · refine Follows.step fun _ => ?_
        split <;> infer_instance
      all_goals infer_instance
    · split
      · refine Follows.step fun _ => ?_
        split <;> infer_instance
      all_goals infer_instance

variable (s : Stmt)

instance :
    Follows R (asExpr s context : Parser i _) := by
  unfold asExpr
  split <;> infer_instance

instance :
    Follows R (calledBy g context) := by
  unfold calledBy
  refine Follows.step fun x => ?_
  simp only
  split
  · refine Follows.step fun _ => ?_
    split <;> infer_instance
  · split <;> infer_instance

instance :
    Follows R (callStmt g k) := by
  unfold callStmt
  refine Follows.step fun p => Follows.step fun call => ?_
  cases call <;> infer_instance

instance :
    Follows R (returnStmt g) := by
  unfold returnStmt
  infer_instance

instance :
    Follows R (branchStmt k : Parser i _) := by
  unfold branchStmt
  infer_instance

instance :
    Follows R (ifHeader g) := by
  unfold ifHeader
  refine Follows.step fun here => Follows.step fun isOpen => ?_
  split
  · infer_instance
  · refine @follows_inHeader i _ R _ _ ?_
    refine Follows.step fun isEmpty => ?_
    extract_lets next
    have hNext (first : Option Stmt) : Follows R (next first) := by
      refine Follows.step fun isOpen => ?_
      split
      · cases first <;> infer_instance
      · refine Follows.step fun s => ?_
        extract_lets _ _ last
        have hLast (semi : Option Token) : Follows R (last semi) := by
          refine Follows.step fun isOpen => ?_
          split
          · cases semi <;> infer_instance
          · infer_instance
        split <;> infer_instance
    split <;> infer_instance

instance :
    Follows R (ifStatement g) := by
  unfold ifStatement
  refine Follows.step fun p => Follows.step fun header => ?_
  refine Follows.step fun body => Follows.step fun isElse => ?_
  split
  · refine Follows.step fun _ => Follows.step fun k => ?_
    split <;> infer_instance
  · infer_instance

instance :
    Follows R (atClause : Parser i _) := by
  unfold atClause
  infer_instance

instance :
    Follows R (caseClause g) := by
  unfold caseClause
  infer_instance

instance :
    Follows R (isTypeGuard s : Parser i _) := by
  unfold isTypeGuard
  split <;> infer_instance

instance :
    Follows R (switchStmt g) := by
  unfold switchStmt
  refine Follows.step fun p => Follows.step fun isOpen => ?_
  split
  all_goals
    refine Follows.step fun header => ?_
    rcases header with ⟨init, _ | tag⟩
    · infer_instance
    · refine Follows.step fun guarded => ?_
      cases guarded <;> infer_instance

instance :
    Follows R (commOperation g) := by
  unfold commOperation
  infer_instance

instance :
    Follows R (commClause g) := by
  unfold commClause
  infer_instance

instance :
    Follows R (selectStmt g) := by
  unfold selectStmt
  infer_instance

instance :
    Follows R (loopHeader g) := by
  unfold loopHeader
  refine Follows.step fun isRange => ?_
  split
  · infer_instance
  · extract_lets next
    have hNext (first : Option Stmt) : Follows R (next first) := by
      infer_instance
    refine Follows.step fun isEmpty => ?_
    split
    · infer_instance
    · refine Follows.step fun r => ?_
      split <;> infer_instance

instance :
    Follows R (forStmt g) := by
  unfold forStmt
  refine Follows.step fun p => Follows.step fun isOpen => ?_
  extract_lets next
  have hNext (header : LoopHeader) :
      Follows R (next header) := by
    refine Follows.step fun body => Follows.step fun _ => ?_
    cases header with
    | plain init test post => cases test <;> infer_instance
    | range lhs opPos op rangePos x =>
        simp only
        split <;> infer_instance
  split <;> infer_instance

instance :
    Follows R (statement g) := by
  unfold statement
  refine Follows.step fun s => ?_
  simp only
  split
  all_goals try infer_instance
  -- a simple statement, which ends here unless it is labeled
  all_goals
    refine Follows.step fun r => ?_
    split <;> infer_instance

instance follows_grammar
    (depth : Nat) :
    Grammar.Follows R (grammar depth) := by
  induction depth with
  | zero =>
      constructor <;> intros <;>
        exact inferInstanceAs (Follows R (pure _))
  | succ depth ih =>
      constructor <;> intros <;> unfold grammar <;> infer_instance

------------------------------------------------------------
-- Files
------------------------------------------------------------

instance :
    Follows R (funcBody g) := by
  unfold funcBody
  refine Follows.step fun k => ?_
  split <;> infer_instance

instance :
    Follows R (funcDecl g) := by
  unfold funcDecl
  refine Follows.step fun doc => Follows.step fun p => ?_
  refine Follows.step fun isMethod => ?_
  extract_lets next
  have hNext (recv : Option Fields) :
      Follows R (next recv) := by
    refine Follows.step fun name => Follows.step fun isOpen => ?_
    split
    · refine Follows.step fun tps => ?_
      split <;> infer_instance
    · infer_instance
  split <;> infer_instance

instance :
    Follows R (topDecl g) := by
  unfold topDecl
  refine Follows.step fun k => ?_
  split <;> infer_instance

instance
    (last : TokenKind) :
    Follows R (topDecls g fuel last) := by
  induction fuel generalizing last with
  | zero => exact inferInstanceAs (Follows R (pure _))
  | succ fuel ih =>
      unfold topDecls
      infer_instance

instance follows_file :
    Follows R (file : Parser i _) := by
  unfold file
  infer_instance

end Parser

end Source

end Namesake
