/-!
The layout of descriptions: lists in brackets, optional parts, and named fields in braces.
-/

namespace Interpose.Text

def list (items : List String) : String :=
  "[" ++ ", ".intercalate items ++ "]"

def tuple (items : List String) : String :=
  "(" ++ ", ".intercalate items ++ ")"

def option : Option String → String
  | none => "None"
  | some text => "Some" ++ tuple [text]

def bool (b : Bool) : String :=
  if b then "true" else "false"

def fields (parts : List (String × String)) : List String :=
  parts.map fun part => part.1 ++ ": " ++ part.2

def record (name : String) (parts : List (String × String)) : String :=
  name ++ " \x7b " ++ ", ".intercalate (fields parts) ++ " \x7d"

/-- A record of which some fields stay hidden. -/
def openRecord (name : String) (parts : List (String × String)) : String :=
  name ++ " \x7b " ++ ", ".intercalate (fields parts ++ [".."]) ++ " \x7d"

end Interpose.Text
