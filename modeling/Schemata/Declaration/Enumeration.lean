import Schemata.Declaration.Basic
import Schemata.Declaration.Literal
import Schemata.Text.Number

/-!
# Enumerations

An enumeration writes names with values.  A name between two low lines on either side,
and one that begins as the private names of the class do, is a plain attribute; all
others are members.  The members of an enumeration that is made of texts or integers
have their values converted.

A member whose value occurred before is another name of the earlier member.
-/

namespace Schemata

namespace Declarations

/-- Whether a name stands between two low lines on either side. -/
def isSpecialName (name : String) : Bool :=
  match name.toList with
  | '_' :: '_' :: c :: rest =>
    match rest.reverse with
    | '_' :: '_' :: d :: _ => c != '_' && d != '_'
    | ['_', '_'] => c != '_'
    | _ => false
  | _ => false

/-- Whether a name is a private one of the class of the given name. -/
def isPrivateName (className name : String) : Bool :=
  let start := "_" ++ className ++ "__"
  start.isPrefixOf name && start.length < name.length && !(['_', '_'].isPrefixOf name.toList.reverse)

/-- Whether a name that an enumeration writes is a member. -/
def isMemberName (cls : ClassDecl) (name : String) : Bool :=
  !isSpecialName name && !isPrivateName cls.name name

variable (ds : Declarations)

/-- The class of the language whose values the members of an enumeration are, its own
or that of an ancestor. -/
def mixin? (cls : ClassDecl) : Option String :=
  (ds.ancestors cls.key).findSome? fun ancestor =>
    match ancestor with
    | .foreign "str" => some "str"
    | .foreign "int" => some "int"
    | _ => none

/-- A value converted to a class of the language. -/
def convert (mixin : Option String) (value : Json) : Json :=
  match mixin, value with
  | some "str", value => .str value.toWord
  | some "int", .bool value => .int (if value then 1 else 0)
  | some "int", .float value => (value.truncate?.map Json.int).getD (.float value)
  | some "int", .str content => ((Text.integer? content.toList).map Json.int).getD (.str content)
  | _, value => value

/-- The members of an enumeration under all their names. -/
def members (cls : ClassDecl) : Table String Json :=
  let mixin := ds.mixin? cls
  (cls.members.filter fun entry => isMemberName cls entry.1).map fun entry =>
    (entry.1, convert mixin entry.2)

/-- The members of an enumeration under their first names. -/
def canonicalMembers (cls : ClassDecl) : Table String Json :=
  (ds.members cls).foldl (fun known member =>
    if known.any (·.2.same member.2) then known else known ++ [member]) []

/-- The member of a name, under its first name. -/
def member? (cls : ClassDecl) (name : String) : Option (String × Json) :=
  ((ds.members cls).find? name).bind fun value =>
    List.find? (·.2.same value) (ds.canonicalMembers cls)

/-- The member of a name as a hint. -/
def memberHint? (key name : String) : Option Hint :=
  (ds.class? key).bind fun cls =>
    (ds.member? cls name).map fun member => .member key member.1

/-- The value of a member. -/
def memberValue? (key name : String) : Option Json :=
  (ds.class? key).bind fun cls => (ds.member? cls name).map (·.2)

end Declarations

end Schemata
