import Schemata.Settings.Lookup
import Schemata.Text.LowerCase

/-!
# Output flags

Three flags steer the output of each dialect.  A flag holds the JSON value it was
set to and counts as set when that value counts as true.

Which properties are required is decided once per object: with
{lit}`respectDefaults` those without a default, else with {lit}`requireNullable`
all, else those whose type is not nullable.
-/

namespace Schemata

/-- The output flags of a dialect. -/
structure Flags where
  /-- Write the schema's address and identifier and fixed values, and leave the
  discriminator block out. -/
  strict : Json
  /-- Properties without a default are required. -/
  respectDefaults : Json
  /-- Nullable properties are required too. -/
  requireNullable : Json

namespace Flags

/-- Flags from truth values. -/
def ofBools (strict respectDefaults requireNullable : Bool) : Flags :=
  ⟨.bool strict, .bool respectDefaults, .bool requireNullable⟩

/-- The flags that a dialect has when nothing is set. -/
def initial : Dialect → Flags
  | .jsonSchema => ofBools false true true
  | .tool => ofBools true false true

/-- The presets of a dialect. -/
def presets : Dialect → List (String × Flags)
  | .jsonSchema =>
    [("default", ofBools false true true), ("simple", ofBools false true true),
      ("strict", ofBools true false true)]
  | .tool =>
    [("default", ofBools true false true), ("simple", ofBools false false false),
      ("strict", ofBools true false true)]

/-- The preset of a name, whose case does not matter. -/
def preset (dialect : Dialect) : Json → Except Error Flags
  | .str name =>
    match Table.find? (presets dialect) (lowerCase name) with
    | some flags => .ok flags
    | none => .error (.unknownPreset dialect name)
  | _ => .error .missingAttribute

/-- Flags from an object: a preset, and the flags set on top of it. -/
def ofJson (dialect : Dialect) : Json → Except Error Flags
  | .obj members => do
    let name := (Table.find? members "preset").getD .null
    let base ← if name.isTruthy then preset dialect name else pure (initial dialect)
    return {
      strict := (Table.find? members "strict_schema_flag").getD base.strict
      respectDefaults := (Table.find? members "respect_default_presence").getD base.respectDefaults
      requireNullable := (Table.find? members "require_nullable_fields").getD base.requireNullable }
  | _ => .error .missingAttribute

/-- The flags as an object. -/
def toJson (flags : Flags) : Json :=
  .obj [("strict_schema_flag", flags.strict),
    ("respect_default_presence", flags.respectDefaults),
    ("require_nullable_fields", flags.requireNullable)]

end Flags

end Schemata
