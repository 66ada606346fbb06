import Mathlib.Data.List.Forall2
import Namesake.Alias.Parser

/-
  The grammar of directive arguments, as a relation between
  token lists and what they say, and the meaning of what they
  say.

    List     =  '(' Entry {',' Entry} [','] ')' EOF
    Entry    =  IDENT other than deprecated
             |  'deprecated' '(' IDENT {',' Setting} [','] ')'
    Setting  =  Key '=' STRING
    Key      =  since | note

  Key definitions include:
    * `Grammar.Item`
    * `Grammar.IsSetting` and `Grammar.IsSettings`
    * `Grammar.IsEntry` and `Grammar.IsEntries`
    * `Grammar.IsSentence`
    * `Grammar.Denotes`
-/

namespace Namesake

namespace Arguments

namespace Grammar

------------------------------------------------------------
-- What Is Said
------------------------------------------------------------

/- A key with the literal given for it, quotes included. -/
structure Setting where
  key : Key
  literal : Bytes
deriving DecidableEq, Repr

/- An entry of the list, as written. -/
inductive Item where
  | plain (name : Bytes)
  | deprecated (name : Bytes) (settings : List Setting)
deriving DecidableEq, Repr

------------------------------------------------------------
-- The Grammar
------------------------------------------------------------

/- A setting is a key, an equals sign and a string literal. -/
inductive IsSetting : List Token → Setting → Prop where
  | intro
      {word equals literal : Token}
      {k : Key}
      (hWord : word.kind = .ident)
      (hKey : word.text = k.name)
      (hEquals : equals.kind = .assign)
      (hLiteral : literal.kind = .string) :
      IsSetting [word, equals, literal] ⟨k, literal.text⟩

/- Any number of settings, each behind a comma. -/
inductive IsSettings : List Token → List Setting → Prop where
  | nil : IsSettings [] []
  | cons
      {comma : Token}
      {first rest : List Token}
      {s : Setting}
      {settings : List Setting}
      (hComma : comma.kind = .comma)
      (hFirst : IsSetting first s)
      (hRest : IsSettings rest settings) :
      IsSettings (comma :: first ++ rest) (s :: settings)

/- At most one comma. -/
inductive IsTrailing : List Token → Prop where
  | none : IsTrailing []
  | comma
      {comma : Token}
      (hComma : comma.kind = .comma) :
      IsTrailing [comma]

/- A plain name, or a deprecated one with its settings. -/
inductive IsEntry : List Token → Item → Prop where
  | plain
      {name : Token}
      (hName : name.kind = .ident)
      (hPlain : name.text ≠ deprecatedWord) :
      IsEntry [name] (.plain name.text)
  | deprecated
      {word opening name closing : Token}
      {body trailing : List Token}
      {settings : List Setting}
      (hWord : word.kind = .ident)
      (hDeprecated : word.text = deprecatedWord)
      (hOpening : opening.kind = .leftParen)
      (hName : name.kind = .ident)
      (hBody : IsSettings body settings)
      (hTrailing : IsTrailing trailing)
      (hClosing : closing.kind = .rightParen) :
      IsEntry
        (word :: opening :: name ::
          (body ++ trailing ++ [closing]))
        (.deprecated name.text settings)

/- At least one entry, with commas between them. -/
inductive IsEntries : List Token → List Item → Prop where
  | single
      {tokens : List Token}
      {item : Item}
      (hEntry : IsEntry tokens item) :
      IsEntries tokens [item]
  | cons
      {first rest : List Token}
      {comma : Token}
      {item : Item}
      {items : List Item}
      (hFirst : IsEntry first item)
      (hComma : comma.kind = .comma)
      (hRest : IsEntries rest items) :
      IsEntries (first ++ comma :: rest) (item :: items)

/- A whole list of entries, up to the end of the text. -/
inductive IsSentence : List Token → List Item → Prop where
  | intro
      {opening closing eof : Token}
      {body trailing : List Token}
      {items : List Item}
      (hOpening : opening.kind = .leftParen)
      (hBody : IsEntries body items)
      (hTrailing : IsTrailing trailing)
      (hClosing : closing.kind = .rightParen)
      (hEof : eof.kind = .eof) :
      IsSentence
        (opening :: (body ++ trailing ++ [closing, eof]))
        items

------------------------------------------------------------
-- The Meaning
------------------------------------------------------------

/- The last literal that settings give for a key. -/
def lastLiteral?
    (k : Key)
    (settings : List Setting) : Option Bytes :=
  (settings.filter fun s => s.key = k).getLast?.map
    Setting.literal

end Grammar

/- The text of a key in a deprecation. -/
def Key.get
    (d : Deprecation) : Key → Option Bytes
  | .since => d.since
  | .note => d.note

namespace Grammar

/-
  A deprecation holds what settings give: for each key the
  value of its last literal, and nothing exactly if the key
  does not occur.
-/
def Gives
    (settings : List Setting)
    (d : Deprecation) : Prop :=
  ∀ k : Key,
    (lastLiteral? k settings).map Quoted.decode? =
      (k.get d).map some

/- The name and the deprecation that an item stands for. -/
inductive Denotes : Item → Bytes → Option Deprecation → Prop where
  | plain
      (name : Bytes) :
      Denotes (.plain name) name none
  | deprecated
      {name : Bytes}
      {settings : List Setting}
      {d : Deprecation}
      (hGives : Gives settings d) :
      Denotes (.deprecated name settings) name (some d)

end Grammar

end Arguments

end Namesake
