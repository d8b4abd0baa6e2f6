/-!
# Outlines

Nested values spread over several lines. Each part of a group stands on lines of its own, four columns
further in than the group and with a comma behind it; a group without parts takes no lines.

```text
Stop {
    name: "north",
    lines: [
        Line(
            4,
        ),
    ],
    notes: [],
}
```
-/

namespace Nominal

/-- A value that is written as an outline. -/
inductive Outline where
  /-- Text on one line. -/
  | text (line : String)
  /-- A value with a name before it. -/
  | labelled (label : String) (value : Outline)
  /-- Parts between an opening and a closing text. -/
  | group (opening : String) (parts : List Outline) (closing : String)

namespace Outline

/-- A number. -/
def ofNat (n : Nat) : Outline :=
  text (toString n)

/-- A truth value. -/
def ofBool (b : Bool) : Outline :=
  text (toString b)

/-- Values one after the other, between brackets. -/
def list (values : List Outline) : Outline :=
  group "[" values "]"

/-- Named values, between braces behind the name of what they make up. -/
def record (name : String) (fields : List (String × Outline)) : Outline :=
  group (name ++ " \x7b") (fields.map fun (label, value) => labelled label value) "\x7d"

/-- A value that belongs to a name, between parentheses behind the name. -/
def wrapped (name : String) (value : Outline) : Outline :=
  group (name ++ "(") [value] ")"

/-- A value that may be missing. -/
def option : Option Outline → Outline
  | some value => wrapped "Some" value
  | none => text "None"

/-- Values with keys, between braces. -/
def table (entries : List (String × Outline)) : Outline :=
  group "\x7b" (entries.map fun (key, value) => labelled key value) "\x7d"

/-- The start of a line that is `depth` groups deep. -/
def margin (depth : Nat) : String :=
  "".pushn ' ' (4 * depth)

mutual

/-- The lines of an outline that starts on a line `depth` groups deep. -/
def renderAt (depth : Nat) : Outline → String
  | text line => line
  | labelled label value => label ++ ": " ++ value.renderAt depth
  | group opening parts closing =>
    match parts with
    | [] => opening ++ closing
    | _ =>
      opening ++ "\n" ++ renderParts (depth + 1) parts ++ margin depth ++ closing

/-- The lines of the parts of a group, all `depth` groups deep. -/
def renderParts (depth : Nat) : List Outline → String
  | [] => ""
  | part :: parts =>
    margin depth ++ part.renderAt depth ++ ",\n" ++ renderParts depth parts

end

/-- The lines of an outline. -/
def render (o : Outline) : String :=
  o.renderAt 0

end Outline

end Nominal
