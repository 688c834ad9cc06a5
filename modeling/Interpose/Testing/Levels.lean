import Interpose.Error
import Interpose.Method

/-!
The choice of API levels that a test runs at.
-/

namespace Interpose

/-- Puts a level into a strictly ascending list, unless it is there. -/
def insertLevel (level : Nat) : List Nat → List Nat
  | [] => [level]
  | l :: rest =>
    if level < l then level :: l :: rest
    else if level = l then l :: rest
    else l :: insertLevel level rest

/-- The levels of a list, strictly ascending. -/
def ascending : List Nat → List Nat
  | [] => []
  | level :: rest => insertLevel level (ascending rest)

def levelsText (levels : List Nat) : String := Text.list (levels.map toString)

inductive LevelChoice where
  | default
  | all
  /-- Just these levels, all of which have to be supported. -/
  | exact (levels : List Nat)
  | range (window : Window)
deriving DecidableEq

namespace LevelChoice

def describe : LevelChoice → String
  | default => "Default"
  | all => "All"
  | exact levels => "Exact(" ++ levelsText levels ++ ")"
  | range window =>
    Text.record "Range"
      [("min", Text.option (window.min.map toString)), ("max", Text.option (window.max.map toString))]

/-- The chosen levels in the order they are given, or the first wanted level that is not supported. -/
def candidates (choice : LevelChoice) (supported : List Nat) (defaultLevel : Nat) :
    Except Nat (List Nat) :=
  match choice with
  | default => .ok [defaultLevel]
  | all => .ok supported
  | exact levels =>
    match levels.find? fun level => !supported.contains level with
    | some level => .error level
    | none => .ok levels
  | range window => .ok (supported.filter window.admits)

/-- The chosen levels, strictly ascending. An empty choice is an error. -/
def select (choice : LevelChoice) (supported : List Nat) (defaultLevel : Nat) :
    Except Error (List Nat) :=
  match choice.candidates supported defaultLevel with
  | .error level =>
    .error (.misconfigured ("API level " ++ toString level ++ " is not supported (supported: " ++
      levelsText supported ++ ")"))
  | .ok levels =>
    if (ascending levels).isEmpty then
      .error (.misconfigured ("API selection " ++ choice.describe ++ " matches none of " ++
        levelsText supported))
    else .ok (ascending levels)

end LevelChoice

end Interpose
