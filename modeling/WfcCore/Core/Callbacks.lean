import Mathlib.Data.List.Basic

/-!
# The watch on callbacks

`core::reconfigure` installs two handlers in `wfcglobal`. The wrappers of the components call them when a callback
handler is destroyed without a call, and when it is called twice.
-/

namespace WfcCore.Core

structure CallbackOptions where
  nocallCallbackAbort : Bool
  nocallCallbackShow : Bool
  doubleCallbackAbort : Bool
  doubleCallbackShow : Bool
deriving DecidableEq

def CallbackOptions.default : CallbackOptions where
  nocallCallbackAbort := true
  nocallCallbackShow := true
  doubleCallbackAbort := true
  doubleCallbackShow := true

/-- The ident and the text of an entry of the domain log. -/
abbrev LogEntry := String × String

def callbackEntry (abort show_ stopSignalFlag : Bool) (text : String) : Option LogEntry :=
  if stopSignalFlag then some ("WARNING", text ++ " after stop signal")
  else if abort then some ("FATAL", text)
  else if show_ then some ("ERROR", text)
  else none

def nocallHandler (opt : CallbackOptions) (stopSignalFlag : Bool) (objname : String) : Option LogEntry :=
  callbackEntry opt.nocallCallbackAbort opt.nocallCallbackShow stopSignalFlag
    ("The callback handler for the '" ++ objname ++ "' was destroyed without a call")

def doublecallHandler (opt : CallbackOptions) (stopSignalFlag : Bool) (objname : String) : Option LogEntry :=
  callbackEntry opt.doubleCallbackAbort opt.doubleCallbackShow stopSignalFlag
    ("Double call callback functions for '" ++ objname ++ "'")

inductive Misuse where
  | nocall | doublecall
deriving DecidableEq

def Misuse.handler : Misuse → CallbackOptions → Bool → String → Option LogEntry
  | .nocall => nocallHandler
  | .doublecall => doublecallHandler

def Misuse.aborts (opt : CallbackOptions) : Misuse → Bool
  | .nocall => opt.nocallCallbackAbort
  | .doublecall => opt.doubleCallbackAbort

/-- A handler asks for an abort exactly if its option says so and no stop has been signalled. -/
theorem misuse_fatal (kind : Misuse) (opt : CallbackOptions) (stopSignalFlag : Bool) (objname : String) :
    (∃ text, kind.handler opt stopSignalFlag objname = some ("FATAL", text)) ↔
      kind.aborts opt = true ∧ stopSignalFlag = false := by
  have entry (abort show_ : Bool) (text : String) :
      (∃ found, callbackEntry abort show_ stopSignalFlag text = some ("FATAL", found)) ↔
        abort = true ∧ stopSignalFlag = false := by
    cases stopSignalFlag <;> cases abort <;> cases show_ <;> simp [callbackEntry]
  cases kind with
  | nocall => exact entry ..
  | doublecall => exact entry ..

end WfcCore.Core
