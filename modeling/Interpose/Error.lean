import Interpose.Refusal
import Interpose.Sandbox.Stage
import Interpose.Text.Layout
import Interpose.Text.Quoted

/-!
What can go wrong, by cause, with one function for the wording.
-/

namespace Interpose

structure Place where
  file : String
  line : Nat
deriving DecidableEq

/-- The place of what was never written in a file. -/
def Place.unknown : Place := ⟨"", 0⟩

inductive Error where
  /-- Declarations, bindings or settings that do not fit together; where they were written may be known. -/
  | configuration (message : String) (place : Place)
  /-- The winning candidate of a call is declared more than once. -/
  | ambiguous (typeId method : String) (candidates : List String)
  | refused (typeId method : String) (reason : Refusal)
  | invocation (typeId method message : String)
  /-- Something of a test outlived the reset of its sandbox. -/
  | leak (sandbox : Nat) (details : String)
  | invalidStage (stage : Stage) (operation : String)
  /-- Work asked of a sandbox that leaked. -/
  | poisoned (sandbox : Nat)
  | taskPanicked (message : String)
  | typeNotFound (typeId : String)
  | fieldNotFound (typeId field : String)
  /-- A handle that was never issued. -/
  | invalidHandle (id : Nat)
  /-- A handle of another generation. -/
  | staleHandle (id generation current : Nat)
deriving DecidableEq

namespace Error

def misconfigured (message : String) : Error := configuration message Place.unknown

def message : Error → String
  | configuration m _ => m
  | ambiguous typeId method candidates =>
    "Ambiguous dispatch for " ++ typeId ++ "." ++ method ++ ": " ++
      Text.list (candidates.map Text.quoted)
  | refused typeId method reason =>
    "Dispatch failed for " ++ typeId ++ "." ++ method ++ ": " ++ reason.text
  | invocation typeId method m =>
    "Invocation of " ++ typeId ++ "." ++ method ++ " failed: " ++ m
  | leak sandbox details =>
    "Isolation leak in sandbox " ++ toString sandbox ++ ": " ++ details
  | invalidStage stage operation =>
    "Operation '" ++ operation ++ "' is not valid in state " ++ stage.text
  | poisoned sandbox => "Sandbox " ++ toString sandbox ++ " is poisoned"
  | taskPanicked m => "Task panicked: " ++ m
  | typeNotFound typeId => "Failed to find type - " ++ typeId
  | fieldNotFound typeId field => "Failed to find field " ++ typeId ++ "." ++ field
  | invalidHandle id => "Invalid object reference #" ++ toString id
  | staleHandle id generation current =>
    "Stale object reference #" ++ toString id ++ " from generation " ++ toString generation ++
      " (current " ++ toString current ++ ")"

def text : Error → String
  | configuration m place =>
    "Configuration - " ++ place.file ++ ":" ++ toString place.line ++ ": " ++ m
  | e => e.message

def causeName : Error → String
  | configuration .. => "Configuration"
  | ambiguous .. => "DispatchAmbiguity"
  | refused .. => "DispatchFailed"
  | invocation .. => "Invocation"
  | leak .. => "IsolationLeak"
  | invalidStage .. => "InvalidState"
  | poisoned _ => "SandboxPoisoned"
  | taskPanicked _ => "TaskPanicked"
  | typeNotFound _ => "TypeNotFound"
  | fieldNotFound .. => "FieldNotFound"
  | invalidHandle _ => "InvalidReference"
  | staleHandle .. => "StaleReference"

/-- Whether a sandbox that reports this error is never used again. -/
def poisonsSandbox : Error → Bool
  | leak .. | poisoned _ => true
  | _ => false

end Error

end Interpose
