import Namesake.Text.Quoted
import Namesake.Yaml.Base64
import Namesake.Yaml.Error
import Namesake.Yaml.Node

/-
  This file defines how nodes are read as records with texts
  and truth values in their fields.  Fields that a mapping
  does not name keep their values.

  Key definitions include:
    * `Yaml.Mismatch`
    * `Yaml.Decoder`
    * `Yaml.Decoder.text`
    * `Yaml.Decoder.truth`
    * `Yaml.Record`
    * `Yaml.Record.decode`
-/

namespace Namesake

namespace Yaml

------------------------------------------------------------
-- Mismatches
------------------------------------------------------------

/- Why a node does not fit what is read from it. -/
inductive Mismatch where
  | type (line : Nat) (tag value target : Bytes)
  | repeatedKey (line : Nat) (key : Bytes) (first : Nat)
  | repeatedField (line : Nat) (field target : Bytes)
deriving DecidableEq, Repr

namespace Mismatch

/- A text, cut if it is long. -/
def shorten
    (s : Bytes) : Bytes :=
  if 10 < s.length then s.take 7 ++ utf8 "..." else s

/- The wording of a mismatch. -/
def message : Mismatch → Bytes
  | .type line tag value target =>
      let shown :=
        if tag == Tag.seq || tag == Tag.map then
          []
        else
          utf8 " `" ++ shorten value ++ utf8 "`"
      utf8 "line " ++ Bytes.ofNat line ++ utf8 ": cannot unmarshal " ++
        tag ++ shown ++ utf8 " into " ++ target
  | .repeatedKey line key first =>
      utf8 "line " ++ Bytes.ofNat line ++ utf8 ": mapping key " ++
        Quoted.encode key ++ utf8 " already defined at line " ++
        Bytes.ofNat first
  | .repeatedField line field target =>
      utf8 "line " ++ Bytes.ofNat line ++ utf8 ": field " ++ field ++
        utf8 " already set in type " ++ target

/- The wording of all mismatches of a text. -/
def messages
    (ms : List Mismatch) : Bytes :=
  utf8 "yaml: unmarshal errors:" ++
    ms.flatMap fun m => utf8 "\n  " ++ m.message

end Mismatch

/- Reading goes on after a mismatch and stops at an error. -/
abbrev Decoder :=
  StateT (List Mismatch) (Except Error)

namespace Decoder

/- Note a mismatch. -/
def complain
    (m : Mismatch) : Decoder Unit :=
  modify (· ++ [m])

/- Note that a node is not what is wanted. -/
def mistyped
    (n : Node)
    (target : Bytes) : Decoder Unit :=
  complain (.type n.line n.tag n.value target)

------------------------------------------------------------
-- Scalars
------------------------------------------------------------

/- What a scalar stands for. -/
inductive Value where
  | null
  | text (s : Bytes)
  | truth (b : Bool)
  | other
deriving DecidableEq, Repr

/- The tag of a scalar, checked against the one it claims. -/
def checkedTag
    (tag value : Bytes) : Except Error Bytes :=
  let found := implicitTag (tag == Tag.timestamp) value
  if found == tag then
    .ok tag
  else if tag == Tag.float && found == Tag.int then
    .ok tag
  else
    .error ⟨.wrongTag found value tag, 0⟩

/- What a scalar with a tag stands for. -/
def valueOf
    (tag value : Bytes) : Except Error Value :=
  if tag == Tag.str then
    .ok (.text value)
  else if tag == Tag.binary then
    match Base64.decode? value with
    | some bytes => .ok (.text bytes)
    | none => .error ⟨.badBinary, 0⟩
  else
    match checkedTag tag value with
    | .error e => .error e
    | .ok tag =>
        if tag == Tag.null then .ok .null
        else if tag == Tag.bool then .ok (.truth (isTrue value))
        else if tag == Tag.merge then .ok (.text value)
        else .ok .other

/- Is this a word for true that is no truth value itself? -/
def isYes
    (s : Bytes) : Bool :=
  isWord ["y", "Y", "yes", "Yes", "YES", "on", "On", "ON"] s

/- Is this a word for false that is no truth value itself? -/
def isNo
    (s : Bytes) : Bool :=
  isWord ["n", "N", "no", "No", "NO", "off", "Off", "OFF"] s

------------------------------------------------------------
-- Collections
------------------------------------------------------------

/- Note the keys of a mapping that repeat an earlier one. -/
def repeatedKeys : List (Node × Node) → List Mismatch
  | [] => []
  | (k, _) :: pairs =>
      (pairs.filterMap fun (other, _) =>
        if k.sameKind other && k.value == other.value then
          some (.repeatedKey other.line other.value k.line)
        else
          none) ++ repeatedKeys pairs

/- Note what is wrong with a collection in place of a scalar. -/
def notScalar
    (n : Node)
    (target : Bytes) : Decoder Unit := do
  match n with
  | .mapping _ pairs _ =>
      match repeatedKeys pairs with
      | [] => mistyped n target
      | ms => modify (· ++ ms)
  | _ => mistyped n target

/- The node itself, or the one that it refers to. -/
def follow
    (doc : Document) : Node → Node
  | .reference name target place line =>
      (doc.target? target).getD (.reference name target place line)
  | n => n

/- Read a text; a null gives none. -/
def text
    (doc : Document)
    (n : Node) : Decoder (Option Bytes) := do
  let n := follow doc n
  match n with
  | .scalar tag value _ =>
      match ← valueOf tag value with
      | .null => return none
      | .text s => return some s
      | _ => return some value
  | _ =>
      notScalar n (utf8 "string")
      return none

/- Read a truth value; a null gives none. -/
def truth
    (doc : Document)
    (n : Node) : Decoder (Option Bool) := do
  let n := follow doc n
  match n with
  | .scalar tag value _ =>
      match ← valueOf tag value with
      | .null => return none
      | .truth b => return some b
      | .text s =>
          if isYes s then
            return some true
          else if isNo s then
            return some false
          else
            mistyped n (utf8 "bool")
            return none
      | .other =>
          mistyped n (utf8 "bool")
          return none
  | _ =>
      notScalar n (utf8 "bool")
      return none

end Decoder

------------------------------------------------------------
-- Records
------------------------------------------------------------

/- A field of a record and how it is read. -/
structure Field (σ : Type) where
  name : Bytes
  read : Document → Node → σ → Decoder σ

/- A kind of records. -/
structure Record (σ : Type) where
  name : Bytes
  fields : List (Field σ)

namespace Record

variable {σ : Type}

/- Is this the key whose value is merged into its mapping? -/
def isMerge : Node → Bool
  | .scalar tag value _ => tag == Tag.merge && value == mergeKey
  | _ => false

/-
  What is known while the entries of a mapping are read: the
  record, the names that may not be set by merging, the names
  set so far, and the last value to merge.
-/
structure Progress (σ : Type) where
  record : σ
  merged : Option (List Bytes)
  set : List Bytes := []
  merge : Option Node := none

/- Read one entry of a mapping. -/
def entry
    (doc : Document)
    (r : Record σ)
    (p : Progress σ)
    (pair : Node × Node) : Decoder (Progress σ) := do
  let (key, value) := pair
  if isMerge key then
    return { p with merge := some value }
  else
    match ← Decoder.text doc key with
    | none => return p
    | some name =>
        if (p.merged.getD []).contains name then
          return p
        else
          let p := { p with merged := p.merged.map (name :: ·) }
          match r.fields.find? (fun f => f.name == name) with
          | none => return p
          | some f =>
              if p.set.contains name then
                Decoder.complain (.repeatedField key.line name r.name)
                return p
              else
                let record ← f.read doc value p.record
                return { p with record, set := name :: p.set }

/- Read the entries of a mapping in order. -/
def entries
    (doc : Document)
    (r : Record σ) : Progress σ → List (Node × Node) →
      Decoder (Progress σ)
  | p, [] => return p
  | p, pair :: pairs => do
      let p ← entry doc r p pair
      entries doc r p pairs

/- The names that the keys of a mapping set themselves. -/
def ownNames
    (doc : Document)
    (pairs : List (Node × Node)) : List Bytes :=
  pairs.filterMap fun (key, _) =>
    match Decoder.follow doc key with
    | .scalar tag value _ => if tag == Tag.str then some value else none
    | _ => none

/- The mappings that a merged value stands for. -/
def mergeParts?
    (doc : Document) : Node → Option (List Node)
  | .sequence _ items _ =>
      if items.all fun n => (Decoder.follow doc n).isMapping then
        some items
      else
        none
  | n => if (Decoder.follow doc n).isMapping then some [n] else none

/-
  Read a node as a record.  `active` are the references that
  are being read, and `merged` the names that may not be set,
  if the node is merged into another one.
-/
def decodeFrom
    (doc : Document)
    (r : Record σ) : (fuel : Nat) → (active : List Nat) →
      (merged : Option (List Bytes)) → Node → σ →
      Decoder (σ × Option (List Bytes))
  | 0, _, merged, _, out => return (out, merged)
  | fuel + 1, active, merged, n, out => do
      match n with
      | .reference name target place _ =>
          if active.contains place then
            throw ⟨.cyclicAnchor name, 0⟩
          else
            match doc.target? target with
            | some t => decodeFrom doc r fuel (place :: active) merged t out
            | none => return (out, merged)
      | .scalar tag value _ =>
          match ← Decoder.valueOf tag value with
          | .null => return (out, merged)
          | _ =>
              Decoder.mistyped n r.name
              return (out, merged)
      | .sequence _ _ _ =>
          Decoder.mistyped n r.name
          return (out, merged)
      | .mapping _ pairs _ =>
          match Decoder.repeatedKeys pairs with
          | m :: ms =>
              modify (· ++ m :: ms)
              return (out, merged)
          | [] =>
              let p ← entries doc r { record := out, merged } pairs
              match p.merge with
              | none => return (p.record, p.merged)
              | some value =>
                  match mergeParts? doc value with
                  | none => throw ⟨.badMerge, 0⟩
                  | some parts =>
                      let names := p.merged.getD (ownNames doc pairs)
                      let (out, names) ←
                        parts.foldlM
                          (fun (out, names) part =>
                            decodeFrom doc r fuel active names part out)
                          (p.record, some names)
                      return (out, p.merged.bind fun _ => names)

/-
  Read a node as a record whose fields have values already.
  Every reference is followed at most once at a time, so that
  the square of the number of characters bounds the depth.
-/
def decode
    (r : Record σ)
    (doc : Document)
    (n : Node)
    (out : σ) : Decoder σ := do
  let bound := (doc.size + 2) * (doc.size + 2)
  let (out, _) ← decodeFrom doc r bound [] none n out
  return out

end Record

end Yaml

end Namesake
