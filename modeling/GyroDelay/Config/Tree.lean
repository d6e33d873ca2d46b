import GyroDelay.Bits
import GyroDelay.Decimal.Reading

/-!
# Trees of settings

What a configuration text holds, whatever its format: named and listed values down to
plain ones. Which of them a program wants, and what it takes for a setting, is decided when
the tree is read.
-/

namespace GyroDelay.Config

/-- A value of a configuration text. -/
inductive Tree where
  /-- Nothing. -/
  | null
  | bool (value : Bool)
  | integer (value : Int)
  | double (value : Float)
  | text (value : String)
  | list (items : List Tree)
  /-- Named values; a name that is no text is `none`. -/
  | record (members : List (Option String × Tree))
  /-- A value that is well-formed in its format but holds nothing readable. -/
  | unreadable
deriving Inhabited

namespace Tree

/-- The truth value that a tree holds. -/
def bool? : Tree → Option Bool
  | .bool b => some b
  | _ => none

/-- The text that a tree holds. -/
def text? : Tree → Option String
  | .text s => some s
  | _ => none

/-- The double that a tree holds. Integers within 64 bits count as doubles. -/
def double? : Tree → Option Float
  | .double x => some x
  | .integer i =>
    if isSigned 64 i || isUnsigned 64 i then some (Decimal.nearest (decide (i < 0)) i.natAbs 0)
    else none
  | _ => none

/-- The number without a sign that a tree holds within a number of bits. -/
def word? (bits : Nat) : Tree → Option Nat
  | .integer i => if isUnsigned bits i then some i.toNat else none
  | _ => none

/-- The word of 16 bits that a tree holds. -/
def word16? (t : Tree) : Option UInt16 := (t.word? 16).map UInt16.ofNat

/-- The word of 64 bits that a tree holds. -/
def word64? (t : Tree) : Option UInt64 := (t.word? 64).map UInt64.ofNat

/-- A value that may be absent. -/
def optional? {β : Type} (read : Tree → Option β) : Tree → Option (Option β)
  | .null => some none
  | t => (read t).map some

end Tree

/-- What the formats of configurations decide differently. -/
structure Dialect where
  /-- Whether a list in the place of a record may have more items than the record has
  fields. -/
  longLists : Bool
  /-- What may follow the name of a choice that is written as a record. -/
  isUnit : Tree → Bool

namespace Dialect

/-- The members of a known name. -/
def named (name : String) (members : List (Option String × Tree)) : List Tree :=
  members.filterMap fun m => if m.1 = some name then some m.2 else none

/-- The only member of a known name, if there is one; none at all if there are several. -/
def single? (members : List (Option String × Tree)) (name : String) : Option (Option Tree) :=
  match named name members with
  | [] => some none
  | [t] => some (some t)
  | _ => none

/-- The fields of a record by their names. Unknown names are passed over; a known name may
occur once. A list stands for the fields in order and may end early. -/
def fields? (d : Dialect) (names : List String) : Tree → Option (List (Option Tree))
  | .record members =>
    if members.all fun m => m.1.isSome then names.mapM (single? members) else none
  | .list items =>
    if names.length < items.length && !d.longLists then none
    else some ((List.range names.length).map fun i => items[i]?)
  | _ => none

/-- The name of a choice: a text, or a record with that name and nothing behind it. -/
def choice? (d : Dialect) : Tree → Option String
  | .text s => some s
  | .record [(some name, t)] => if d.isUnit t then some name else none
  | _ => none

end Dialect

/-- A field that takes its default when it is absent. -/
def field? {β : Type} (default : β) (read : Tree → Option β) : Option Tree → Option β
  | none => some default
  | some t => read t

end GyroDelay.Config
