/-
**Writing JSON.**

Stored content is written in a layout that says, for each value, whether it stands on one line or
gives each of its parts a line of its own. Parts stand two columns further in than what holds them.
-/

import Handbook.Json.Value

namespace Handbook.Json

/-! ### On one line -/

/-- A character inside a string. -/
def stringChar (c : Char) : Text :=
  if c = '"' ∨ c = '\\' then ['\\', c]
  else if c = '\n' then ['\\', 'n']
  else if c = '\t' then ['\\', 't']
  else if c = '\r' then ['\\', 'r']
  else if c.toNat < 0x20 then ['\\', 'u'] ++ Text.hex 4 c.toNat
  else [c]

/-- A string between its quotes. -/
def writeString (text : Text) : Text := ['"'] ++ text.flatMap stringChar ++ ['"']

/-- What parts the items of an array and the members of an object. -/
def separator : Text := [',', ' ']

/-- The opening brace. -/
def openBrace : Text := ['\x7b']

/-- The closing brace. -/
def closeBrace : Text := ['\x7d']

/-- A member from its name and its written value. -/
def writeMember (name written : Text) : Text := writeString name ++ [':', ' '] ++ written

mutual

/-- A value on one line. -/
def Value.write : Value → Text
  | .null => "null".toList
  | .bool true => "true".toList
  | .bool false => "false".toList
  | .integer value => Text.signedDecimal value
  | .decimal lexeme => lexeme
  | .string text => writeString text
  | .array items => ['['] ++ separator.intercalate (writeItems items) ++ [']']
  | .object members => openBrace ++ separator.intercalate (writeMembers members) ++ closeBrace

/-- Items of an array, each on one line. -/
def writeItems : List Value → List Text
  | [] => []
  | item :: others => item.write :: writeItems others

/-- Members of an object, each on one line. -/
def writeMembers : List (Text × Value) → List Text
  | [] => []
  | (name, value) :: others => writeMember name value.write :: writeMembers others

end

/-! ### On many lines -/

/-- A value and how it is spread over lines. -/
inductive Layout where
  | line (value : Value)
  | list (items : List Layout)
  | record (members : List (String × Layout))

/-- The line feed before something at a depth, and its margin. -/
def newLine (depth : Nat) : Text := '\n' :: List.replicate (2 * depth) ' '

/-- What parts the lines of a value. -/
def lineEnd (depth : Nat) : Text := ',' :: newLine depth

mutual

/-- A value in its layout, at a depth. -/
def Layout.write : Layout → (depth : Nat) → Text
  | .line value, _ => value.write
  | .list items, depth =>
    ['['] ++ newLine (depth + 1)
      ++ (lineEnd (depth + 1)).intercalate (layItems items (depth + 1)) ++ newLine depth ++ [']']
  | .record members, depth =>
    openBrace ++ newLine (depth + 1)
      ++ (lineEnd (depth + 1)).intercalate (layMembers members (depth + 1)) ++ newLine depth
      ++ closeBrace

/-- Items of an array in their layouts, at a depth. -/
def layItems : List Layout → (depth : Nat) → List Text
  | [], _ => []
  | item :: others, depth => item.write depth :: layItems others depth

/-- Members of an object in their layouts, at a depth. -/
def layMembers : List (String × Layout) → (depth : Nat) → List Text
  | [], _ => []
  | (name, layout) :: others, depth =>
    writeMember name.toList (layout.write depth) :: layMembers others depth

end

/-- A value in its layout, as the content of a file. -/
def Layout.file (layout : Layout) : Text := layout.write 0 ++ ['\n']

end Handbook.Json
